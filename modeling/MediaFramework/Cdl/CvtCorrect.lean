import MediaFramework.Cdl.CvtFields
import Mathlib.Data.List.TakeDrop

/-!
# What is kept of a code version table

A well-formed table is kept as it was written down when its descriptors have the lengths that they
are taken to have, and its numbers fit where they are put. The CVCs are then gone through by the
validation, which trusts their number and their lengths.
-/

namespace MediaFramework

open CvtLayout

variable {xs ys : List UInt8}

/-! ## The parts of a table -/

theorem takes_skip {k : ℕ} (h : xs.length = k) : Takes (skip_bits (8 * k)) xs () := by
  intro buf p rest _ _
  refine (reads_skip_octets buf p k).mono ?_
  rintro _ _ rfl
  exact ⟨rfl, by rw [h]⟩

theorem takes_chars : ∀ l : List UInt8, Takes (get_chars l.length) l l := by
  intro l
  induction l with
  | nil => exact Takes.pure []
  | cons c l ih =>
    refine Takes.bind (takes_octet c) (ih.bind_pure ?_)
    rw [ofOctets_singleton, UInt8.ofNat_toNat]

theorem takes_counted (l : CvtChars) : Takes counted_chars l.encode l.val := by
  have hlength : ofOctets [UInt8.ofNat l.val.length] = l.val.length := by
    rw [ofOctets_singleton, UInt8.toNat_ofNat', Nat.mod_eq_of_lt l.property]
  refine Takes.bind (takes_octet _) ?_
  rw [hlength]
  exact takes_chars l.val

theorem lengthSize_append {n : ℕ} (h : IsLength xs n) (rest : List UInt8) :
    lengthSize (xs ++ rest) = xs.length := by
  rw [lengthSize]
  rcases h with ⟨hn, rfl⟩ | ⟨octets, hoctets, rfl, -⟩
  · rw [leading_append (length_toOctets 1 n), ofOctets_toOctets 1 n (by omega), if_pos hn,
      length_toOctets]
  · rw [List.append_assoc, leading_append (length_toOctets 1 _),
      ofOctets_toOctets 1 _ (by omega), if_neg (by omega), List.length_append, length_toOctets,
      Nat.add_sub_cancel_left]

theorem takes_lengthField {n : ℕ} (h : IsLength xs n) : Takes lengthField xs () := by
  intro buf p rest hdrop _
  refine (reads_lengthField buf p).mono ?_
  rintro _ _ rfl
  rw [hdrop, lengthSize_append h]
  exact ⟨rfl, rfl⟩

/-- The octets of a number that is read in two parts. -/
theorem exists_parts {k : ℕ} (h : xs.length = k + 4) :
    ∃ high low : List UInt8, xs = high ++ low ∧ high.length = k ∧ low.length = 4 ∧
      ofOctets high <<< 32 ||| ofOctets low = ofOctets xs := by
  have hlow : (xs.drop k).length = 4 := by
    rw [List.length_drop]
    omega
  have hlt := ofOctets_lt (xs.drop k)
  rw [hlow] at hlt
  refine ⟨xs.take k, xs.drop k, (List.take_append_drop k xs).symm, ?_, hlow, ?_⟩
  · rw [List.length_take]
    omega
  · conv_rhs => rw [← List.take_append_drop k xs, ofOctets_append, hlow]
    rw [← Nat.shiftLeft_add_eq_or_of_lt hlt, Nat.shiftLeft_eq]

theorem takes_long {n : ℕ} (h : n < 256 ^ 8) : Takes get_long (toOctets 8 n) n := by
  obtain ⟨high, low, hparts, hhigh, hlow, hor⟩ := exists_parts (length_toOctets 8 n)
  rw [ofOctets_toOctets 8 n h] at hor
  rw [hparts]
  exact (takes_octets hhigh).bind ((takes_octets hlow).bind_pure hor)

theorem takes_pid (reserved : Fin 8) (pid : Fin 8192) :
    Takes get_pid (toOctets 2 (reserved * 8192 + pid)) pid := by
  intro buf p rest hdrop _
  refine (reads_skip_bits buf (8 * p) 3).bind ?_
  rintro _ _ rfl
  refine (reads_get_bits buf (8 * p + 3) 13).mono ?_
  rintro _ _ ⟨rfl, rfl⟩
  refine ⟨?_, by rw [length_toOctets]; omega⟩
  rw [bitsIn_low buf p 2 (by decide) (by omega), hdrop, leading_append (length_toOctets 2 _),
    ofOctets_toOctets 2 _ (by omega)]
  omega

theorem takes_location (l : CvtLocation) : Takes (location l.downloadtype) l.encode l.data := by
  rcases l with id | ⟨freq, mod, reserved, pid⟩ | ⟨freq, mod, prog⟩ | ⟨t, ht⟩ |
    ⟨addr, src, src', dst, dst', sport, dport⟩ | id | ⟨t, ht⟩ | ⟨upper, lower⟩ | ⟨t, ht⟩
  · exact (takes_field 1 (by decide)).bind ((takes_field 2 id.isLt).bind_pure rfl)
  · exact (takes_field 1 (by decide)).bind ((takes_field 2 freq.isLt).bind
      ((takes_field 1 mod.isLt).bind ((takes_pid reserved pid).bind_pure rfl)))
  · exact (takes_field 1 (by decide)).bind ((takes_field 2 freq.isLt).bind
      ((takes_field 1 mod.isLt).bind ((takes_field 2 prog.isLt).bind_pure rfl)))
  · refine (takes_field 1 t.isLt).bind_last ?_
    rw [if_neg (by omega), if_neg (by omega), if_neg (by omega)]
    exact Takes.pure _
  · obtain ⟨high, low, hparts, hhigh, hlow, hor⟩ := exists_parts (length_toOctets 6 addr)
    rw [ofOctets_toOctets 6 addr addr.isLt] at hor
    rw [CvtLocation.encode, hparts, List.append_assoc, CvtLocation.data, ← hor]
    exact (takes_field 1 (by decide)).bind ((takes_octets hhigh).bind ((takes_octets hlow).bind
      ((takes_long src.isLt).bind ((takes_long src'.isLt).bind ((takes_long dst.isLt).bind
        ((takes_long dst'.isLt).bind ((takes_field 2 sport.isLt).bind
          ((takes_field 2 dport.isLt).bind_pure rfl))))))))
  · exact (takes_field 1 (by decide)).bind ((takes_field 2 id.isLt).bind_pure rfl)
  · refine (takes_field 1 t.isLt).bind_last ?_
    rw [if_neg ht.1, if_neg ht.2]
    exact Takes.pure _
  · have hupper := takes_chars upper.val
    have hlower := takes_chars lower.val
    rw [upper.property] at hupper
    rw [lower.property] at hlower
    exact hupper.bind (hlower.bind_pure rfl)
  · rw [CvtLocation.downloadtype, location, if_neg (by omega), if_neg (by omega),
      if_neg (by omega)]
    exact Takes.pure _

theorem CvtLocation.downloadtype_lt (l : CvtLocation) : l.downloadtype < 16 := by
  cases l with
  | other t _ => exact t.isLt
  | _ => simp [downloadtype]

theorem takes_source (s : CvtSource) : Takes cvtPlace s.encode s.data := by
  intro buf p rest hdrop hp
  have htype := s.location.downloadtype_lt
  have hbyte : leading 1 (buf.drop p) = s.location.downloadtype * 16 + s.download_command := by
    rw [hdrop, CvtSource.encode, List.append_assoc, leading_append (length_toOctets 1 _),
      ofOctets_toOctets 1 _ (by omega)]
  have hnext : buf.drop (p + 1) = s.location.encode ++ rest := by
    rw [← List.drop_drop, hdrop, CvtSource.encode, List.append_assoc]
    exact List.drop_left' (length_toOctets 1 _)
  have hle : p + 1 ≤ buf.length := by
    have := congrArg List.length hdrop
    rw [List.length_drop, CvtSource.encode, List.append_assoc, List.length_append,
      length_toOctets] at this
    omega
  refine (reads_get_bits buf (8 * p) 4).bind ?_
  rintro _ _ ⟨rfl, rfl⟩
  refine (reads_get_bits buf (8 * p + 4) 4).bind ?_
  rintro _ _ ⟨rfl, rfl⟩
  rw [bitsIn_high buf p (by decide) (by decide), bitsIn_low buf p 1 (by decide) (by omega), hbyte,
    show (s.location.downloadtype * 16 + s.download_command.val) / 2 ^ (8 - 4) =
      s.location.downloadtype by omega,
    show (s.location.downloadtype * 16 + s.download_command.val) % 2 ^ 4 =
      s.download_command by omega]
  refine (takes_location s.location buf (p + 1) rest hnext hle).bind ?_
  rintro _ _ ⟨rfl, rfl⟩
  refine Reads.pure ⟨rfl, ?_⟩
  rw [CvtSource.encode, List.length_append, length_toOctets, Nat.add_assoc]

theorem takes_object (o : CvtObject) : Takes t2v2Object o.encode o.data :=
  (takes_source o.source).bind ((takes_field 2 o.object_type.isLt).bind
    ((takes_counted o.object_data).bind ((takes_counted o.codefile).bind_pure rfl)))

theorem takes_objects : ∀ (os : List CvtObject) (i : ℕ), os.length + i ≤ cvt2v2MaxObjects →
    Takes (t2v2Objects os.length i) (os.flatMap CvtObject.encode) (os.map CvtObject.data) := by
  intro os
  induction os with
  | nil => exact fun _ _ => Takes.pure []
  | cons o os ih =>
    intro i h
    rw [List.length_cons] at h
    rw [List.length_cons, t2v2Objects, if_neg (by omega)]
    exact (takes_object o).bind ((ih (i + 1) (by omega)).bind_pure rfl)

/-! ## The descriptors -/

/-- The descriptors whose length is not looked at have the length they are taken to have. -/
def CvtDescriptor.Plain (d : CvtDescriptor) : Prop :=
  (d.tag.toNat = 0x02 → d.content.val.length = 6) ∧
    (d.tag.toNat = 0x03 → d.content.val.length = 5)

/-- Two of the numbers are kept as `int`s. -/
def CvtIds.cut (ids : CvtIds) : CvtIds :=
  { ids with
    vendorId := ids.vendorId % 2 ^ 32
    hardwareVersionId := ids.hardwareVersionId % 2 ^ 32 }

theorem takes_descriptor {d : CvtDescriptor} (h : d.Plain) (ids : CvtIds) :
    Takes (cvtDescriptor ids.cut) d.encode (d.note ids).cut := by
  have hlength : ofOctets [UInt8.ofNat d.content.val.length] = d.content.val.length := by
    rw [ofOctets_singleton, UInt8.toNat_ofNat', Nat.mod_eq_of_lt d.content.property]
  refine Takes.bind (takes_octet d.tag) ?_
  refine Takes.bind (takes_octet _) ?_
  rw [hlength, ofOctets_singleton, CvtDescriptor.note]
  split_ifs with h₀ h₁ h₂ h₃
  · exact (takes_octets rfl).bind_pure rfl
  · exact (takes_octets rfl).bind_pure rfl
  · obtain ⟨high, low, hparts, hhigh, hlow, hor⟩ := exists_parts (k := 2) (h.1 h₂)
    rw [hparts, ← hparts, ← hor, hparts]
    exact (takes_octets hhigh).bind ((takes_octets hlow).bind_pure rfl)
  · obtain ⟨high, low, hparts, hhigh, hlow, hor⟩ := exists_parts (k := 1) (h.2 h₃)
    rw [← hor, hparts]
    exact (takes_octets hhigh).bind ((takes_octets hlow).bind_pure rfl)
  · exact (takes_skip rfl).bind_last (Takes.pure _)

theorem takes_descriptors : ∀ (ds : List CvtDescriptor) (ids : CvtIds), (∀ d ∈ ds, d.Plain) →
    Takes (cvtDescriptors ds.length ids.cut) (ds.flatMap CvtDescriptor.encode)
      (ds.foldl CvtDescriptor.note ids).cut := by
  intro ds
  induction ds with
  | nil => exact fun ids _ => Takes.pure ids.cut
  | cons d ds ih =>
    intro ids h
    rw [List.forall_mem_cons] at h
    exact (takes_descriptor h.1 ids).bind (ih (d.note ids) h.2)

/-- How many octets a descriptor is taken to have. -/
theorem descriptorSize_encode (d : CvtDescriptor) (rest : List UInt8) :
    descriptorSize (d.encode ++ rest) = d.encode.length ↔ d.Plain := by
  have htag : leading 1 (d.encode ++ rest) = d.tag.toNat := leading_one_cons _ _
  have hlen : leading 1 ((d.encode ++ rest).drop 1) = d.content.val.length := by
    show leading 1 (UInt8.ofNat d.content.val.length :: (d.content.val ++ rest)) = _
    rw [leading_one_cons, UInt8.toNat_ofNat', Nat.mod_eq_of_lt d.content.property]
  have hlength : d.encode.length = 2 + d.content.val.length := by
    show d.content.val.length + 1 + 1 = _
    omega
  rw [descriptorSize, htag, hlen, hlength, CvtDescriptor.Plain]
  split_ifs with h₂ h₃ <;> omega

theorem drop_descriptor {d : CvtDescriptor} (h : d.Plain) (rest : List UInt8) :
    (d.encode ++ rest).drop (descriptorSize (d.encode ++ rest)) = rest := by
  rw [(descriptorSize_encode d rest).mpr h, List.drop_left]

/-- **Descriptors are read where they are when they are plain.** -/
theorem descriptorsSize_iff (tail : List UInt8) : ∀ ds : List CvtDescriptor,
    (∀ i ≤ ds.length, descriptorsSize i (ds.flatMap CvtDescriptor.encode ++ tail) +
      ((ds.drop i).flatMap CvtDescriptor.encode ++ tail).length =
        (ds.flatMap CvtDescriptor.encode ++ tail).length) ↔ ∀ d ∈ ds, d.Plain := by
  intro ds
  induction ds with
  | nil =>
    refine iff_of_true (fun i hi => ?_) fun d hd => absurd hd List.not_mem_nil
    obtain rfl := Nat.le_zero.mp hi
    exact Nat.zero_add _
  | cons d ds ih =>
    rw [List.forall_mem_cons, List.flatMap_cons, List.append_assoc]
    constructor
    · intro h
      have hone := h 1 (by rw [List.length_cons]; omega)
      have hplain : d.Plain := by
        rw [← descriptorSize_encode d (ds.flatMap CvtDescriptor.encode ++ tail)]
        rw [descriptorsSize, descriptorsSize, List.drop_succ_cons, List.drop_zero,
          @List.length_append _ d.encode] at hone
        omega
      refine ⟨hplain, ih.mp fun i hi => ?_⟩
      have hi' := h (i + 1) (by rw [List.length_cons]; omega)
      rw [descriptorsSize, drop_descriptor hplain, (descriptorSize_encode d _).mpr hplain,
        List.drop_succ_cons, @List.length_append _ d.encode] at hi'
      omega
    · rintro ⟨hplain, hds⟩ i hi
      rcases i with _ | i
      · rw [descriptorsSize, List.drop_zero, List.flatMap_cons, List.append_assoc, Nat.zero_add]
      · have hi' := ih.mpr hds i (by rw [List.length_cons] at hi; omega)
        rw [descriptorsSize, drop_descriptor hplain, (descriptorSize_encode d _).mpr hplain,
          List.drop_succ_cons, @List.length_append _ d.encode]
        omega

/-! ## Tables -/

namespace CvtTable

variable {t : CvtTable} {buf : List UInt8}

theorem version_lt (c : CvtContent) : c.version < 256 ^ 1 := by
  cases c <;> simp [CvtContent.version]

/-- The fields before the descriptors. -/
theorem takes_header {tag length : List UInt8} {n : ℕ} (htag : tag.length = 3)
    (hlength : IsLength length n) :
    Takes cvtHeader (tag ++ (length ++ (toOctets 1 t.content.version ++
      (toOctets 1 t.config_count_change ++ toOctets 1 t.descriptors.val.length))))
      (⟨t.content.version, t.config_count_change, 0, 0, 0, 0⟩, t.descriptors.val.length) :=
  (takes_skip htag).bind ((takes_lengthField hlength).bind
    ((takes_field 1 (version_lt t.content)).bind ((takes_field 1 t.config_count_change.isLt).bind
      ((takes_field 1 t.descriptors.property).bind_pure rfl))))

/-- What is in the buffer from the descriptors on. -/
theorem exists_header (h : t.IsIn buf) : ∃ header : List UInt8,
    buf = header ++ (t.descriptors.val.flatMap CvtDescriptor.encode ++ t.tail) ∧
      Takes cvtHeader header
        (⟨t.content.version, t.config_count_change, 0, 0, 0, 0⟩, t.descriptors.val.length) := by
  obtain ⟨tag, length, htag, hlength, rfl⟩ := h
  refine ⟨_, ?_, takes_header htag hlength⟩
  simp only [encode, List.append_assoc]

theorem inPlace_iff (h : t.IsIn buf) :
    t.InPlace buf ↔ ∀ d ∈ t.descriptors.val, d.Plain := by
  obtain ⟨header, hbuf, hheader⟩ := exists_header h
  have hdrop : buf.drop header.length =
      t.descriptors.val.flatMap CvtDescriptor.encode ++ t.tail := by
    rw [hbuf, List.drop_left]
  have hlength : buf.length = header.length +
      (t.descriptors.val.flatMap CvtDescriptor.encode ++ t.tail).length := by
    conv_lhs => rw [hbuf, List.length_append]
  have htail : ∀ l : List UInt8, 0 < (l ++ t.tail).length := by
    intro l
    rw [tail, List.length_append, List.length_append, List.length_append, length_toOctets]
    omega
  rw [← descriptorsSize_iff t.tail, InPlace]
  refine forall₂_congr fun i _ => ?_
  have hreads : Reads buf (cvtHeader >>= fun h => cvtDescriptors i h.1) 0 fun _ j =>
      j = 8 * (header.length + descriptorsSize i (buf.drop header.length)) := by
    refine (hheader buf 0 _ hbuf (Nat.zero_le _)).bind ?_
    rintro _ _ ⟨rfl, rfl⟩
    rw [Nat.zero_add]
    exact reads_cvtDescriptors buf i header.length _
  obtain ⟨ids, b, j, hrun, hnear, rfl⟩ := hreads ⟨buf, 0⟩ (near_start buf)
  rw [hdrop] at hnear
  have hrest := htail ((t.descriptors.val.drop i).flatMap CvtDescriptor.encode)
  constructor
  · rintro ⟨ids', b', hrun', hplace⟩
    obtain ⟨-, rfl⟩ := Prod.mk.inj (Option.some.inj (hrun.symm.trans hrun'))
    rcases Nat.lt_or_ge (8 * buf.length) (8 * (header.length + descriptorsSize i
      (t.descriptors.val.flatMap CvtDescriptor.encode ++ t.tail))) with hpast | hinside
    · have := hnear.past hpast
      omega
    · have := hnear.inside hinside
      omega
  · intro hsize
    refine ⟨ids, b, hrun, ?_⟩
    rw [hnear.inside (by omega)]
    omega

/-- What is kept of a table when its descriptors are plain. -/
def keptData (t : CvtTable) : CvtT2vx :=
  match t.content with
  | .ver1 source codefile => .ver1 t.ids.cut source.data codefile.val ⟨t.num_cvcs, kept t.cvcs⟩
  | .ver2 os => .ver2 t.ids.cut (os.val.map CvtObject.data) ⟨t.num_cvcs, kept t.cvcs⟩

theorem afterLength_eq (h : t.IsIn buf) : afterLength buf = t.encode := by
  obtain ⟨tag, length, htag, hlength, rfl⟩ := h
  rw [afterLength, ← List.drop_drop, List.drop_left' htag, lengthSize_append hlength,
    List.drop_left]

theorem version_eq (h : t.IsIn buf) : leading 1 (afterLength buf) = t.content.version := by
  rw [afterLength_eq h, encode, leading_append (length_toOctets 1 _),
    ofOctets_toOctets 1 _ (version_lt t.content)]

theorem descriptorsOf_eq (h : t.IsIn buf) :
    descriptorsOf buf = t.descriptors.val.flatMap CvtDescriptor.encode ++ t.tail := by
  rw [descriptorsOf, afterLength_eq h, encode, ← List.append_assoc, ← List.append_assoc]
  refine List.drop_left' ?_
  simp only [List.length_append, length_toOctets]

theorem afterDescriptors_eq (h : t.IsIn buf) (hplain : ∀ d ∈ t.descriptors.val, d.Plain) :
    afterDescriptors buf = t.tail := by
  have hcount : leading 1 ((afterLength buf).drop 2) = t.descriptors.val.length := by
    have hdrop : (afterLength buf).drop 2 = toOctets 1 t.descriptors.val.length ++
        (t.descriptors.val.flatMap CvtDescriptor.encode ++ t.tail) := by
      rw [afterLength_eq h, encode, ← List.append_assoc]
      exact List.drop_left' (by simp only [List.length_append, length_toOctets])
    rw [hdrop, leading_append (length_toOctets 1 _),
      ofOctets_toOctets 1 _ t.descriptors.property]
  have hsize := (descriptorsSize_iff t.tail t.descriptors.val).mpr hplain _ (Nat.le_refl _)
  rw [List.drop_length, List.flatMap_nil, List.nil_append, List.length_append,
    Nat.add_right_cancel_iff] at hsize
  rw [afterDescriptors, hcount, descriptorsOf_eq h, hsize, List.drop_left]

/-- The CVCs are the last part. -/
theorem takes_cvcs : TakesAll buf (cvtCvcs buf.length) (toOctets 1 t.num_cvcs ++ t.cvcs)
    ⟨t.num_cvcs, kept t.cvcs⟩ := by
  intro p hdrop _
  have hne : buf.drop p ≠ [] := by
    intro h
    rw [h] at hdrop
    have := congrArg List.length hdrop
    rw [List.length_append, length_toOctets, List.length_nil] at this
    omega
  refine (reads_cvtCvcs buf p).mono ?_
  rintro ⟨num_cvcs, cvc_data⟩ _ ⟨hnum, hdata⟩
  have hdata := hdata hne
  rw [hdrop, leading_append (length_toOctets 1 _),
    ofOctets_toOctets 1 _ t.num_cvcs.isLt] at hnum
  rw [hdrop, List.drop_left' (length_toOctets 1 _)] at hdata
  rw [← hnum, ← hdata]

/-- **What is kept of a table whose descriptors are plain.** -/
theorem tableCVT_eq (h : t.IsIn buf) (hplain : ∀ d ∈ t.descriptors.val, d.Plain)
    (hobjects : ∀ os, t.content = .ver2 os → os.val.length ≤ cvt2v2MaxObjects) :
    tableCVT_T2Vx buf = some t.keptData := by
  obtain ⟨header, hbuf, hheader⟩ := exists_header h
  have hids : Takes (cvtDescriptors t.descriptors.val.length
      ⟨t.content.version, t.config_count_change, 0, 0, 0, 0⟩)
      (t.descriptors.val.flatMap CvtDescriptor.encode) t.ids.cut :=
    takes_descriptors t.descriptors.val
      ⟨t.content.version, t.config_count_change, 0, 0, 0, 0⟩ hplain
  rw [tableCVT_of_version _ (version_eq h), keptData]
  rcases hcontent : t.content with ⟨source, codefile⟩ | os
  · rw [tail, hcontent, CvtContent.encode, List.append_assoc] at hbuf
    have hall := @Takes.bind_all _ _ _ _ _ _ buf (fun h => do
      let ids ← cvtDescriptors h.2 h.1
      let place ← cvtPlace
      let codefile ← counted_chars
      let cvcs ← cvtCvcs buf.length
      return CvtT2vx.ver1 ids place codefile cvcs) _ hheader (hids.bind_all
        ((takes_source source).bind_all ((takes_counted codefile).bind_all
          (takes_cvcs (t := t)).bind_pure)))
    obtain ⟨_, b, j, hrun, -, rfl⟩ := hall 0 hbuf (Nat.zero_le _) ⟨buf, 0⟩ (near_start buf)
    rw [CvtContent.version, if_pos rfl]
    exact congrArg (Option.map Prod.fst) hrun
  · rw [tail, hcontent, CvtContent.encode, List.append_assoc] at hbuf
    have hall := @Takes.bind_all _ _ _ _ _ _ buf (fun h => do
      let ids ← cvtDescriptors h.2 h.1
      let num_of_objects ← get_bits 8
      let objects ← t2v2Objects num_of_objects 0
      let cvcs ← cvtCvcs buf.length
      return CvtT2vx.ver2 ids objects cvcs) _ hheader (hids.bind_all
        ((takes_field 1 os.property).bind_all ((takes_objects os.val 0
          (hobjects os hcontent)).bind_all (takes_cvcs (t := t)).bind_pure)))
    obtain ⟨_, b, j, hrun, -, rfl⟩ := hall 0 hbuf (Nat.zero_le _) ⟨buf, 0⟩ (near_start buf)
    rw [CvtContent.version, if_neg (by decide), if_pos rfl]
    exact congrArg (Option.map Prod.fst) hrun

/-! ## What of a table is kept as it is -/

theorem kept_eq_iff (l : List UInt8) : kept l = l ↔ l.length < 2 ^ 28 := by
  rw [kept, List.take_eq_self_iff]
  rcases Nat.lt_or_ge l.length (2 ^ 28) with h | h
  · refine iff_of_true ?_ h
    rw [Int.bmod_eq_of_le (by omega) (by omega)]
    omega
  · refine iff_of_false ?_ (by omega)
    have := Int.bmod_lt (x := 8 * l.length) (m := 2 ^ 32) (by decide)
    omega

/-- The numbers that are kept as `int`s are not too large, and neither is the length of the CVCs. -/
structure Fits (t : CvtTable) : Prop where
  plain : ∀ d ∈ t.descriptors.val, d.Plain
  vendorId : t.ids.vendorId < 2 ^ 32
  hardwareVersionId : t.ids.hardwareVersionId < 2 ^ 32
  cvcs : t.cvcs.length < 2 ^ 28

theorem cut_eq_iff (ids : CvtIds) :
    ids.cut = ids ↔ ids.vendorId < 2 ^ 32 ∧ ids.hardwareVersionId < 2 ^ 32 := by
  rcases ids with ⟨version, config, vendorId, hardwareVersionId, mac, host⟩
  rw [CvtIds.cut, CvtIds.mk.injEq]
  simp only [true_and, and_true]
  exact and_congr (Nat.mod_eq_iff_lt (by decide)) (Nat.mod_eq_iff_lt (by decide))

theorem keptData_eq_iff : t.keptData = t.data ↔ t.ids.cut = t.ids ∧ kept t.cvcs = t.cvcs := by
  rw [keptData, data]
  rcases t.content with ⟨source, codefile⟩ | os
  · simp
  · simp

end CvtTable

/-! ## Going through the CVCs -/

/-- The CVCs that are gone through lie in the data, and are four at most. -/
def CvcsLaid : List (Option CvcRecord) → ℕ → Prop
  | [], _ => True
  | none :: _, _ => False
  | some c :: cs, numCvcs => numCvcs < 4 ∧ (c.signer ≠ none → CvcsLaid cs (numCvcs + 1))

/-- Whatever the certificates are taken for, the CVCs of the table can be gone through. -/
def Walks (cvt : TableCvt) : Prop :=
  ∀ (Time : Type) (pkcs : PkcsUtils Time) (names : CvcSigner → String),
    ∀ cvcs ∈ cvt.cvcs, CvtValidation.collect pkcs names cvcs 0 (fun _ => none) ≠ none

/-- Routines for which every certificate is in order. -/
def trusting : PkcsUtils Unit where
  getCVCInfoFromNonSignedData _ := some ⟨"", "", "", "", (), (), true⟩
  getPublicKeyFromCVC _ := some []
  validateCertSignature _ _ := true

theorem collect_iff {Time : Type} {pkcs : PkcsUtils Time} {names : CvcSigner → String}
    {rs : List (Option CvcRecord)} {n : ℕ} {found : CvcSigner → Option (CvcInfo Time)} :
    CvtValidation.collect pkcs names rs n found ≠ none ↔ CvtValidation.Laid pkcs names rs n := by
  rcases CvtValidation.collect_cases rs n found with ⟨hnot, hnone⟩ | ⟨hlaid, h⟩
  · exact iff_of_false (fun h => h hnone) hnot
  · refine iff_of_true ?_ hlaid
    rcases h with ⟨_, _, _, _, hsome, _⟩ | ⟨_, hsome⟩ <;> rw [hsome] <;> simp

theorem laid_of_cvcsLaid {Time : Type} (pkcs : PkcsUtils Time) (names : CvcSigner → String) :
    ∀ (rs : List (Option CvcRecord)) (n : ℕ), CvcsLaid rs n → CvtValidation.Laid pkcs names rs n := by
  intro rs
  induction rs with
  | nil => exact fun _ _ => trivial
  | cons r rs ih =>
    intro n h
    rcases r with _ | c
    · exact h
    · refine ⟨h.1, ?_⟩
      rintro ⟨info, -, signer, hsigner, -⟩
      exact ih (n + 1) (h.2 (by rw [Option.mem_def.mp hsigner]; simp))

theorem cvcsLaid_of_trusting : ∀ (rs : List (Option CvcRecord)) (n : ℕ),
    CvtValidation.Laid trusting (fun _ => "") rs n → CvcsLaid rs n := by
  intro rs
  induction rs with
  | nil => exact fun _ _ => trivial
  | cons r rs ih =>
    intro n h
    rcases r with _ | c
    · exact h
    · refine ⟨h.1, fun hsigner => ih (n + 1) (h.2 ?_)⟩
      obtain ⟨signer, hsigner⟩ := Option.ne_none_iff_exists'.mp hsigner
      exact ⟨_, rfl, signer, hsigner, rfl⟩

theorem walks_iff (cvt : TableCvt) : Walks cvt ↔ ∀ cvcs ∈ cvt.cvcs, CvcsLaid cvcs 0 := by
  constructor
  · intro h cvcs hcvcs
    exact cvcsLaid_of_trusting cvcs 0 (collect_iff.mp (h Unit trusting (fun _ => "") cvcs hcvcs))
  · intro h Time pkcs names cvcs hcvcs
    exact collect_iff.mpr (laid_of_cvcsLaid pkcs names cvcs 0 (h cvcs hcvcs))

/-! ## Any buffer -/

/-- The CVCs that are counted at the front of some octets lie in what is kept of them. -/
def CvcsFit (l : List UInt8) : Prop :=
  kept (l.drop 1) ≠ [] → CvcsLaid (TableCvt.cvcsFrom (kept (l.drop 1)) (leading 1 l) 0) 0

/-- What a buffer has to be like: the CVCs fit, and there are no more than four objects. -/
def Fitting (buf : List UInt8) : Prop :=
  (leading 1 (afterLength buf) = 1 → CvcsFit (cvcsOf1 buf)) ∧
    (leading 1 (afterLength buf) = 2 →
      leading 1 (afterDescriptors buf) ≤ cvt2v2MaxObjects ∧ CvcsFit (cvcsOf2 buf))

/-- **What reading a table should be.** It only uses the buffer and the four entries for objects; the
CVCs can be gone through; and a well-formed table is kept as it is, each descriptor being read where
it is. -/
def ReadsRight (buf : List UInt8) : Prop :=
  (∃ cvt, tableCVT_T2Vx buf = some cvt ∧ Walks cvt.table) ∧
    ∀ t : CvtTable, t.IsIn buf → tableCVT_T2Vx buf = some t.data ∧ t.InPlace buf

theorem walks_table {l : List UInt8} {cvcs : CvtCvcs} {version : ℕ} (h : CvcsAre l cvcs)
    (hversion : version = 1 ∨ version = 2) :
    Walks ⟨.t2vx, version, cvcs.num_cvcs, cvcs.cvc_data⟩ ↔ CvcsFit l := by
  have htable : TableCvt.cvcs ⟨.t2vx, version, cvcs.num_cvcs, cvcs.cvc_data⟩ =
      if cvcs.cvc_data = [] then none
      else some (TableCvt.cvcsFrom cvcs.cvc_data cvcs.num_cvcs 0) := if_pos hversion
  obtain ⟨hnum, hdata⟩ := h
  rw [walks_iff, htable, hnum, CvcsFit]
  rcases eq_or_ne l [] with rfl | hne
  · refine iff_of_true (fun cvcs' hcvcs => ?_) fun h => absurd rfl h
    split_ifs at hcvcs
    · cases hcvcs
    · cases hcvcs
      exact trivial
  · rw [hdata hne]
    split_ifs with hempty
    · exact iff_of_true (fun _ h => nomatch h) fun h => absurd hempty h
    · rw [forall_prop_of_true hempty]
      exact ⟨fun h => h _ rfl, fun h cvcs' hcvcs => Option.some.inj hcvcs ▸ h⟩

/-- When the buffer can be read at all. -/
theorem safe_iff (buf : List UInt8) :
    (∃ cvt, tableCVT_T2Vx buf = some cvt ∧ Walks cvt.table) ↔ Fitting buf := by
  rw [Fitting]
  by_cases h₁ : leading 1 (afterLength buf) = 1
  · obtain ⟨ids, place, codefile, cvcs, hparsed, hcvcs⟩ := parsed1 h₁
    rw [forall_prop_of_true h₁, hparsed, ← walks_table hcvcs (.inl rfl)]
    refine ⟨?_, fun h => ⟨_, rfl, h.1⟩⟩
    rintro ⟨_, hcvt, hwalks⟩
    cases hcvt
    exact ⟨hwalks, fun h => absurd (h₁.symm.trans h) (by decide)⟩
  · rw [forall_prop_of_false h₁, true_and]
    by_cases h₂ : leading 1 (afterLength buf) = 2
    · rw [forall_prop_of_true h₂]
      by_cases hobjects : leading 1 (afterDescriptors buf) ≤ cvt2v2MaxObjects
      · obtain ⟨ids, objects, cvcs, hparsed, hcvcs⟩ := parsed2 h₂ hobjects
        rw [and_iff_right hobjects, hparsed, ← walks_table hcvcs (.inr rfl)]
        refine ⟨?_, fun h => ⟨_, rfl, h⟩⟩
        rintro ⟨_, hcvt, hwalks⟩
        cases hcvt
        exact hwalks
      · rw [overrun2 h₂ (by omega)]
        exact iff_of_false (fun ⟨_, h, _⟩ => nomatch h) fun h => hobjects h.1
    · rw [forall_prop_of_false h₂, iff_true, tableCVT_of_version _ rfl, if_neg h₁, if_neg h₂]
      refine ⟨_, rfl, ?_⟩
      rw [walks_iff]
      intro cvcs hcvcs
      have htable : TableCvt.cvcs (CvtT2vx.other (leading 1 (afterLength buf))).table = some [] :=
        if_neg (by rintro (h | h); exacts [h₁ h, h₂ h])
      rw [htable] at hcvcs
      cases hcvcs
      exact trivial

/-- **When a table is read right**: when there are no more than four objects, and the CVCs fit; and
when a well-formed table has descriptors of the lengths they are taken to have, and numbers that are
not too large. -/
theorem readsRight_iff (buf : List UInt8) :
    ReadsRight buf ↔ Fitting buf ∧ ∀ t : CvtTable, t.IsIn buf → t.Fits := by
  rw [ReadsRight, safe_iff]
  refine and_congr_right fun hfitting => forall₂_congr fun t ht => ?_
  have hobjects : (∀ d ∈ t.descriptors.val, d.Plain) → ∀ os, t.content = .ver2 os →
      os.val.length ≤ cvt2v2MaxObjects := by
    intro hplain os hcontent
    have hcount := (hfitting.2 (by rw [CvtTable.version_eq ht, hcontent]; rfl)).1
    rwa [CvtTable.afterDescriptors_eq ht hplain, CvtTable.tail, hcontent, CvtContent.encode,
      List.append_assoc, leading_append (length_toOctets 1 _),
      ofOctets_toOctets 1 _ os.property] at hcount
  rw [CvtTable.inPlace_iff ht]
  constructor
  · rintro ⟨hdata, hplain⟩
    rw [CvtTable.tableCVT_eq ht hplain (hobjects hplain), Option.some.injEq,
      CvtTable.keptData_eq_iff, CvtTable.cut_eq_iff, CvtTable.kept_eq_iff] at hdata
    exact ⟨hplain, hdata.1.1, hdata.1.2, hdata.2⟩
  · rintro ⟨hplain, hvendor, hhardware, hcvcs⟩
    refine ⟨?_, hplain⟩
    rw [CvtTable.tableCVT_eq ht hplain (hobjects hplain), Option.some.injEq,
      CvtTable.keptData_eq_iff, CvtTable.cut_eq_iff, CvtTable.kept_eq_iff]
    exact ⟨⟨hvendor, hhardware⟩, hcvcs⟩

/-- A table with nothing to load, with one CVC of which there is one octet. -/
def shortCvc : List UInt8 := [0x9F, 0x9C, 0x05, 0x07, 0x01, 0x00, 0x00, 0x30, 0x00, 0x01, 0x00]

/-- The length of the CVC is read behind the CVCs. -/
theorem not_readsRight_shortCvc : ¬ReadsRight shortCvc := by
  rintro ⟨⟨cvt, hcvt, hwalks⟩, -⟩
  have hread : tableCVT_T2Vx shortCvc =
      some (.ver1 ⟨1, 0, 0, 0, 0, 0⟩ ⟨3, 0, 0, .none⟩ [] ⟨1, [0x00]⟩) := by decide +kernel
  obtain rfl := Option.some.inj (hread.symm.trans hcvt)
  refine hwalks Unit trusting (fun _ => "") [none] ?_ rfl
  simp [CvtT2vx.table, TableCvt.cvcs, TableCvt.cvcsFrom, TableCvt.lengthAt]

end MediaFramework
