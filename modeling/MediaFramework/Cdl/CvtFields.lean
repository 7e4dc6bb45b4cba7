import MediaFramework.Cdl.CvtLayout

/-!
# Well-formed code version tables

A table as it is written down, with fields of so many octets each, and what should be kept of it. The
octets of a descriptor's content are a number, whatever their count.

A part of a table is read from its octets, `Takes`, wherever in a buffer it is. Then the parts can be
read one after another.
-/

namespace MediaFramework

/-! ## Tables as they are written down -/

/-- A number in so many octets. -/
abbrev CvtField (k : ℕ) := Fin (256 ^ k)

/-- Characters behind an octet with their number. -/
abbrev CvtChars := { l : List UInt8 // l.length < 256 }

/-- The eight octets of one half of an address. -/
abbrev CvtHalf := { l : List UInt8 // l.length = 8 }

def CvtChars.encode (l : CvtChars) : List UInt8 := UInt8.ofNat l.val.length :: l.val

structure CvtDescriptor where
  tag : UInt8
  content : CvtChars

def CvtDescriptor.encode (d : CvtDescriptor) : List UInt8 := d.tag :: d.content.encode

/-- The locations there are. -/
inductive CvtLocation where
  | sourceId (sourceId : CvtField 2)
  | freqPid (freq_vector : CvtField 2) (modulation_type : CvtField 1) (reserved : Fin 8)
      (pid : Fin 8192)
  | freqProg (freq_vector : CvtField 2) (modulation_type : CvtField 1) (program_num : CvtField 2)
  | inband (type : CvtField 1) (h : 2 < type.val)
  | basicDsg (dsg_tunnel_addr : CvtField 6) (src_upper src_lower dst_upper dst_lower : CvtField 8)
      (src_port dst_port : CvtField 2)
  | advDsg (app_id : CvtField 2)
  | dsg (type : CvtField 1) (h : type.val ≠ 3 ∧ type.val ≠ 4)
  | tftp (upper lower : CvtHalf)
  | other (downloadtype : Fin 16) (h : 2 < downloadtype.val)

namespace CvtLocation

def downloadtype : CvtLocation → ℕ
  | sourceId _ | freqPid _ _ _ _ | freqProg _ _ _ | inband _ _ => 0
  | basicDsg _ _ _ _ _ _ _ | advDsg _ | dsg _ _ => 1
  | tftp _ _ => 2
  | other t _ => t

def encode : CvtLocation → List UInt8
  | sourceId id => toOctets 1 0 ++ toOctets 2 id
  | freqPid freq mod reserved pid =>
    toOctets 1 1 ++ (toOctets 2 freq ++ (toOctets 1 mod ++ toOctets 2 (reserved * 8192 + pid)))
  | freqProg freq mod prog => toOctets 1 2 ++ (toOctets 2 freq ++ (toOctets 1 mod ++ toOctets 2 prog))
  | inband t _ => toOctets 1 t
  | basicDsg addr src src' dst dst' sport dport =>
    toOctets 1 3 ++ (toOctets 6 addr ++ (toOctets 8 src ++ (toOctets 8 src' ++ (toOctets 8 dst ++
      (toOctets 8 dst' ++ (toOctets 2 sport ++ toOctets 2 dport))))))
  | advDsg id => toOctets 1 4 ++ toOctets 2 id
  | dsg t _ => toOctets 1 t
  | tftp upper lower => upper.val ++ lower.val
  | other _ _ => []

/-- What should be kept of it. -/
def data : CvtLocation → ℕ × LocationData
  | sourceId id => (0, .t0 id)
  | freqPid freq mod _ pid => (1, .t1 freq mod pid)
  | freqProg freq mod prog => (2, .t2 freq mod prog)
  | inband t _ => (t, .none)
  | basicDsg addr src src' dst dst' sport dport => (3, .t3 addr src src' dst dst' sport dport)
  | advDsg id => (4, .t4 id)
  | dsg t _ => (t, .none)
  | tftp upper lower => (0xFF, .tftp upper.val lower.val)
  | other _ _ => (0, .none)

end CvtLocation

/-- A location, and the command to load something from there. -/
structure CvtSource where
  download_command : Fin 16
  location : CvtLocation

def CvtSource.encode (s : CvtSource) : List UInt8 :=
  toOctets 1 (s.location.downloadtype * 16 + s.download_command) ++ s.location.encode

def CvtSource.data (s : CvtSource) : CvtPlace :=
  ⟨s.location.downloadtype, s.download_command, s.location.data.1, s.location.data.2⟩

structure CvtObject where
  source : CvtSource
  object_type : CvtField 2
  object_data : CvtChars
  codefile : CvtChars

def CvtObject.encode (o : CvtObject) : List UInt8 :=
  o.source.encode ++ (toOctets 2 o.object_type ++ (o.object_data.encode ++ o.codefile.encode))

def CvtObject.data (o : CvtObject) : T2v2Object :=
  ⟨o.source.data, o.object_type, o.object_data.val, o.codefile.val⟩

/-- What a table tells to load. -/
inductive CvtContent where
  | ver1 (source : CvtSource) (codefile : CvtChars)
  | ver2 (objects : { os : List CvtObject // os.length < 256 })

def CvtContent.version : CvtContent → ℕ
  | ver1 _ _ => 1
  | ver2 _ => 2

def CvtContent.encode : CvtContent → List UInt8
  | ver1 source codefile => source.encode ++ codefile.encode
  | ver2 os => toOctets 1 os.val.length ++ os.val.flatMap CvtObject.encode

/-- A table, behind its length. -/
structure CvtTable where
  config_count_change : CvtField 1
  descriptors : { ds : List CvtDescriptor // ds.length < 256 }
  content : CvtContent
  num_cvcs : CvtField 1
  cvcs : List UInt8

namespace CvtTable

/-- What follows the descriptors. -/
def tail (t : CvtTable) : List UInt8 := t.content.encode ++ (toOctets 1 t.num_cvcs ++ t.cvcs)

def encode (t : CvtTable) : List UInt8 :=
  toOctets 1 t.content.version ++ (toOctets 1 t.config_count_change ++
    (toOctets 1 t.descriptors.val.length ++
      (t.descriptors.val.flatMap CvtDescriptor.encode ++ t.tail)))

end CvtTable

/-- A length field that says how many octets follow it, in one octet or in several. -/
def IsLength (l : List UInt8) (n : ℕ) : Prop :=
  (n < 128 ∧ l = toOctets 1 n) ∨
    ∃ octets, octets.length < 128 ∧ l = toOctets 1 (128 + octets.length) ++ octets ∧
      ofOctets octets = n

/-- The table is what is in the buffer, behind a tag and its length. -/
def CvtTable.IsIn (t : CvtTable) (buf : List UInt8) : Prop :=
  ∃ tag length, tag.length = 3 ∧ IsLength length t.encode.length ∧
    buf = tag ++ (length ++ t.encode)

/-! ## What should be kept -/

/-- A descriptor's content is a number that replaces the one before it. -/
def CvtDescriptor.note (ids : CvtIds) (d : CvtDescriptor) : CvtIds :=
  if d.tag.toNat = 0x00 then { ids with vendorId := ofOctets d.content.val }
  else if d.tag.toNat = 0x01 then { ids with hardwareVersionId := ofOctets d.content.val }
  else if d.tag.toNat = 0x02 then { ids with host_MAC_addr := ofOctets d.content.val }
  else if d.tag.toNat = 0x03 then { ids with host_id := ofOctets d.content.val }
  else ids

namespace CvtTable

def ids (t : CvtTable) : CvtIds :=
  t.descriptors.val.foldl CvtDescriptor.note
    ⟨t.content.version, t.config_count_change, 0, 0, 0, 0⟩

def data (t : CvtTable) : CvtT2vx :=
  match t.content with
  | .ver1 source codefile => .ver1 t.ids source.data codefile.val ⟨t.num_cvcs, t.cvcs⟩
  | .ver2 os => .ver2 t.ids (os.val.map CvtObject.data) ⟨t.num_cvcs, t.cvcs⟩

/-- Each descriptor is read where it is: behind the first `i` of them there are as many octets left
in the buffer as there should be. -/
def InPlace (t : CvtTable) (buf : List UInt8) : Prop :=
  ∀ i ≤ t.descriptors.val.length, ∃ ids b,
    (cvtHeader >>= fun h => cvtDescriptors i h.1) ⟨buf, 0⟩ = some (ids, b) ∧
      b.curr_bit_index + 8 * ((t.descriptors.val.drop i).flatMap CvtDescriptor.encode ++
        t.tail).length = 8 * buf.length

end CvtTable

/-! ## Reading one part after another -/

/-- From the octets `xs` the result `a` is read, and nothing more than those octets. -/
def Takes {α : Type} (m : CvtRead α) (xs : List UInt8) (a : α) : Prop :=
  ∀ buf p rest, buf.drop p = xs ++ rest → p ≤ buf.length →
    Reads buf m (8 * p) fun a' j => a' = a ∧ j = 8 * (p + xs.length)

section Takes

variable {α β : Type} {m : CvtRead α} {xs ys : List UInt8} {a : α}

theorem Takes.pure (a : α) : Takes (pure a) [] a := fun _ _ _ _ _ => Reads.pure ⟨rfl, rfl⟩

theorem Takes.bind {f : α → CvtRead β} {b : β} (hm : Takes m xs a) (hf : Takes (f a) ys b) :
    Takes (m >>= f) (xs ++ ys) b := by
  intro buf p rest hdrop hp
  rw [List.append_assoc] at hdrop
  refine (hm buf p _ hdrop hp).bind ?_
  rintro _ _ ⟨rfl, rfl⟩
  have hnext : buf.drop (p + xs.length) = ys ++ rest := by
    rw [← List.drop_drop, hdrop, List.drop_left]
  have hle : p + xs.length ≤ buf.length := by
    have := congrArg List.length hdrop
    rw [List.length_drop, List.length_append] at this
    omega
  refine (hf buf _ rest hnext hle).mono ?_
  rintro _ _ ⟨rfl, rfl⟩
  exact ⟨rfl, by rw [List.length_append, Nat.add_assoc]⟩

/-- The last part that is read of something. -/
theorem Takes.bind_last {f : α → CvtRead β} {b : β} (hm : Takes m xs a) (hf : Takes (f a) [] b) :
    Takes (m >>= f) xs b := by
  have := hm.bind hf
  rwa [List.append_nil] at this

theorem Takes.bind_pure {b : β} {f : α → β} (hm : Takes m xs a) (hb : f a = b) :
    Takes (m >>= fun a => Pure.pure (f a)) xs b :=
  hm.bind_last (hb ▸ Takes.pure (f a))

/-- The rest of the buffer is read, and gives the result `a`. -/
def TakesAll {α : Type} (buf : List UInt8) (m : CvtRead α) (xs : List UInt8) (a : α) : Prop :=
  ∀ p, buf.drop p = xs → p ≤ buf.length → Reads buf m (8 * p) fun a' _ => a' = a

theorem Takes.bind_all {buf : List UInt8} {f : α → CvtRead β} {b : β} (hm : Takes m xs a)
    (hf : TakesAll buf (f a) ys b) : TakesAll buf (m >>= f) (xs ++ ys) b := by
  intro p hdrop hp
  refine (hm buf p ys hdrop hp).bind ?_
  rintro _ _ ⟨rfl, rfl⟩
  refine hf _ ?_ ?_
  · rw [← List.drop_drop, hdrop, List.drop_left]
  · have := congrArg List.length hdrop
    rw [List.length_drop, List.length_append] at this
    omega

theorem TakesAll.bind_pure {buf : List UInt8} {f : α → β} (hm : TakesAll buf m xs a) :
    TakesAll buf (m >>= fun a => Pure.pure (f a)) xs (f a) := by
  intro p hdrop hp
  refine (hm p hdrop hp).bind ?_
  rintro _ _ rfl
  exact Reads.pure rfl

theorem takes_octets {k : ℕ} (h : xs.length = k) : Takes (get_bits (8 * k)) xs (ofOctets xs) := by
  intro buf p rest hdrop _
  refine (CvtLayout.reads_octets buf p k).mono ?_
  rintro _ _ ⟨rfl, rfl⟩
  rw [hdrop, leading_append h, h]
  exact ⟨rfl, rfl⟩

theorem takes_octet (c : UInt8) : Takes (get_bits 8) [c] (ofOctets [c]) :=
  takes_octets (k := 1) rfl

/-- A field is read. -/
theorem takes_field (k : ℕ) {n : ℕ} (h : n < 256 ^ k) :
    Takes (get_bits (8 * k)) (toOctets k n) n := by
  have := takes_octets (length_toOctets k n)
  rwa [ofOctets_toOctets k n h] at this

end Takes

end MediaFramework
