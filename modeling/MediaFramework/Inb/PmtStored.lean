import MediaFramework.Inb.PmtSections
import MediaFramework.Lib.KeyedList
import Mathlib.Data.List.Induction

/-!
# The streams a program map table is stored as

The second pass stores each stream in two steps, and its descriptors one by one: the stream is
appended, and what belongs to it goes to the first stream of the list with its PID and its type. For
a second stream with the same PID and type that is another one, and a stream with PID zero is not
appended at all.

`entered_iff` is what becomes of the list: it is the streams of the section exactly when none of them
has PID zero, and those with the same PID and type have no descriptors.
-/

namespace MediaFramework

/-! ## Streams, as they should be stored -/

/-- What a stored stream has of the section. -/
structure StreamInfo where
  elementary_stream_type : ℕ
  elementary_PID : ℕ
  es_info_length : ℕ
  descriptors : List PmtDescriptor
  deriving DecidableEq

/-- What a stream is looked up by. -/
def StreamInfo.key (e : StreamInfo) : ℕ × ℕ := (e.elementary_PID, e.elementary_stream_type)

/-- A stored stream, without the language and the names its descriptors have. -/
def ElementaryStream.info (e : ElementaryStream) : StreamInfo :=
  ⟨e.elementary_stream_type, e.elementary_PID, e.es_info_length, e.descriptors⟩

namespace StreamBytes

def key (x : StreamBytes) : ℕ × ℕ := (x.pid, x.type)

/-- As it should be stored. -/
def info (x : StreamBytes) : StreamInfo :=
  ⟨x.type, x.pid, x.esInfoLength, x.descriptors.map DescriptorBytes.info⟩

/-- As it is appended. -/
def blank (x : StreamBytes) : StreamInfo := ⟨x.type, x.pid, 0, []⟩

/-- What it does to the stream found for it. -/
def fill (x : StreamBytes) (e : StreamInfo) : StreamInfo :=
  { e with
    es_info_length := x.esInfoLength
    descriptors := e.descriptors ++ x.descriptors.map DescriptorBytes.info }

@[simp] theorem key_blank (x : StreamBytes) : x.blank.key = x.key := rfl

@[simp] theorem key_info (x : StreamBytes) : x.info.key = x.key := rfl

@[simp] theorem key_fill (x : StreamBytes) (e : StreamInfo) : (x.fill e).key = e.key := rfl

@[simp] theorem fill_blank (x : StreamBytes) : x.fill x.blank = x.info := rfl

/-- Two streams that are not mistaken for one another: if their PIDs and types are the same, neither
has descriptors. -/
def Apart (x y : StreamBytes) : Prop := x.key = y.key → x.esInfoLength = 0 ∧ y.esInfoLength = 0

instance (x y : StreamBytes) : Decidable (x.Apart y) := inferInstanceAs (Decidable (_ → _))

/-- The stream has as many bytes of descriptors as it says. -/
def Fits (x : StreamBytes) : Prop := x.esInfoLength = (descriptorOctets x.descriptors).length

theorem Fits.descriptors_eq_nil {x : StreamBytes} (h : x.Fits) (h0 : x.esInfoLength = 0) :
    x.descriptors = [] := by
  rcases hds : x.descriptors with _ | ⟨d, ds⟩
  · rfl
  · rw [Fits, hds, descriptorOctets_cons, List.length_append, DescriptorBytes.length_octets] at h
    omega

theorem Fits.esInfoLength_eq_zero {x : StreamBytes} (h : x.Fits) (h0 : x.descriptors = []) :
    x.esInfoLength = 0 := by
  rw [h, h0]
  rfl

end StreamBytes

/-! ## What a stream does to the list -/

open KeyedList (lookup modify)

/-- A stream is appended, and the one found for it is filled. -/
def enter (l : List StreamInfo) (x : StreamBytes) : List StreamInfo :=
  modify StreamInfo.key x.key x.fill (if x.pid = 0 then l else l ++ [x.blank])

section Enter

variable {l : List StreamInfo} {x : StreamBytes} {xs : List StreamBytes} {e : StreamInfo}
  {k : ℕ × ℕ}

theorem length_enter : (enter l x).length = l.length + if x.pid = 0 then 0 else 1 := by
  rw [enter, KeyedList.length_modify]
  split_ifs
  · rfl
  · exact List.length_append

/-- **A stream of its own.** It finds itself. -/
theorem enter_new (hpid : x.pid ≠ 0) (h : lookup StreamInfo.key x.key l = none) :
    enter l x = l ++ [x.info] := by
  rw [enter, if_neg hpid, KeyedList.modify_append_of_none h, KeyedList.modify,
    if_pos x.key_blank, x.fill_blank]

/-- **Another stream.** What belongs to it goes to one before it. -/
theorem enter_known (hpid : x.pid ≠ 0) (h : lookup StreamInfo.key x.key l = some e) :
    enter l x = modify StreamInfo.key x.key x.fill l ++ [x.blank] := by
  rw [enter, if_neg hpid, KeyedList.modify_append_of_some h]

theorem lookup_enter_ne (hpid : x.pid ≠ 0) (hk : x.key ≠ k) :
    lookup StreamInfo.key k (enter l x) = lookup StreamInfo.key k l := by
  rw [enter, if_neg hpid, KeyedList.lookup_modify_ne x.key_fill hk.symm, KeyedList.lookup_append,
    KeyedList.lookup_cons_ne (by rw [x.key_blank]; exact hk)]
  exact Option.or_none

theorem lookup_enter_self
    (h : lookup StreamInfo.key x.key (enter l x) = some e) : e.es_info_length = x.esInfoLength := by
  rw [enter, KeyedList.lookup_modify_self x.key_fill] at h
  obtain ⟨e', -, rfl⟩ := Option.map_eq_some_iff.mp h
  rfl

/-- With as many streams as there should be, no PID is zero. -/
theorem pid_ne_zero_of_length : ∀ {xs : List StreamBytes} {l : List StreamInfo},
    (xs.foldl enter l).length = l.length + xs.length → ∀ x ∈ xs, x.pid ≠ 0 := by
  have hle : ∀ (xs : List StreamBytes) (l : List StreamInfo),
      (xs.foldl enter l).length ≤ l.length + xs.length := by
    intro xs
    induction xs with
    | nil => exact fun _ => Nat.le_refl _
    | cons x xs ih =>
      intro l
      have h := ih (enter l x)
      rw [length_enter] at h
      rw [List.foldl_cons, List.length_cons]
      split_ifs at h <;> omega
  intro xs
  induction xs with
  | nil =>
    intro l _ x hx
    cases hx
  | cons x xs ih =>
    intro l h y hy
    have htail := hle xs (enter l x)
    rw [List.foldl_cons, List.length_cons] at h
    rw [length_enter] at htail
    by_cases hpid : x.pid = 0
    · rw [if_pos hpid] at htail
      omega
    · rcases List.mem_cons.mp hy with rfl | hy
      · exact hpid
      · refine ih (l := enter l x) ?_ y hy
        rw [length_enter, if_neg hpid]
        omega

/-- PID and type, and the descriptors. -/
def StreamInfo.described (e : StreamInfo) : (ℕ × ℕ) × List PmtDescriptor := (e.key, e.descriptors)

/-- **Later streams.** If all streams have their descriptors, the later ones of the same PID and type
have none: what belongs to them is not where they are. -/
theorem descriptors_of_described (hpid : ∀ x ∈ xs, x.pid ≠ 0)
    (h : (xs.foldl enter []).map StreamInfo.described =
      xs.map fun x => x.info.described) :
    xs.Pairwise fun x y => x.key = y.key → y.descriptors = [] := by
  induction xs using List.reverseRecOn with
  | nil => exact List.Pairwise.nil
  | append_singleton xs x ih =>
    rw [List.foldl_append, List.foldl_cons, List.foldl_nil, List.map_append] at h
    have hx : x.pid ≠ 0 := hpid x (by simp)
    have hxs : ∀ y ∈ xs, y.pid ≠ 0 := fun y hy => hpid y (List.mem_append_left _ hy)
    rw [List.pairwise_append]
    rcases hfound : lookup StreamInfo.key x.key (xs.foldl enter []) with _ | e
    · rw [enter_new hx hfound, List.map_append] at h
      replace h := (List.append_inj' h rfl).1
      refine ⟨ih hxs h, List.pairwise_singleton _ _, fun y hy z hz hyz => ?_⟩
      obtain rfl := List.mem_singleton.mp hz
      -- no stream before it has its key
      have hkeys := congrArg (List.map Prod.fst) h
      rw [List.map_map, List.map_map] at hkeys
      have hmem : y.key ∈ (xs.foldl enter []).map StreamInfo.key := by
        have : (xs.foldl enter []).map StreamInfo.key = xs.map StreamBytes.key := hkeys
        rw [this]
        exact List.mem_map_of_mem hy
      rw [hyz] at hmem
      exact absurd hmem (KeyedList.lookup_eq_none_iff.mp hfound)
    · rw [enter_known hx hfound, List.map_append] at h
      obtain ⟨h, hblank⟩ := List.append_inj' h rfl
      have hnone : x.descriptors = [] := by
        have := congrArg (List.map Prod.snd) hblank
        simp [StreamInfo.described, StreamBytes.blank, StreamBytes.info] at this
        exact this
      have hfill : ∀ e, (x.fill e).described = e.described := by
        intro e
        simp [StreamBytes.fill, StreamInfo.described, StreamInfo.key, hnone]
      rw [KeyedList.map_modify_eq hfill] at h
      refine ⟨ih hxs h, List.pairwise_singleton _ _, fun y _ z hz _ => ?_⟩
      obtain rfl := List.mem_singleton.mp hz
      exact hnone

/-- **The first stream.** It has the `es_info_length` of the last of its PID and type; where there are
two of them, that is a later one. -/
theorem es_info_length_of_lookup (hpid : ∀ x ∈ xs, x.pid ≠ 0)
    (hlater : xs.Pairwise fun x y => x.key = y.key → y.esInfoLength = 0)
    (h : lookup StreamInfo.key k (xs.foldl enter []) = some e)
    (htwo : 2 ≤ (xs.map StreamBytes.key).count k) : e.es_info_length = 0 := by
  induction xs using List.reverseRecOn with
  | nil => cases h
  | append_singleton xs x ih =>
    rw [List.foldl_append, List.foldl_cons, List.foldl_nil] at h
    rw [List.map_append, List.count_append, List.map_singleton] at htwo
    have hx : x.pid ≠ 0 := hpid x (by simp)
    obtain ⟨hxs, -, hbefore⟩ := List.pairwise_append.mp hlater
    by_cases hk : x.key = k
    · subst hk
      rw [lookup_enter_self h]
      rw [List.count_singleton_self] at htwo
      obtain ⟨y, hy, hkey⟩ := List.mem_map.mp (List.count_pos_iff.mp (show 0 < (xs.map
        StreamBytes.key).count x.key by omega))
      exact hbefore y hy x (List.mem_singleton_self x) hkey
    · rw [lookup_enter_ne hx hk] at h
      rw [List.count_singleton, if_neg (by simpa using hk)] at htwo
      exact ih (fun y hy => hpid y (List.mem_append_left _ hy)) hxs h htwo

/-- Where the first stream of a PID and type has no descriptors, and no later one has, none has. -/
theorem esInfoLength_of_first : ∀ {xs : List StreamBytes},
    (xs.Pairwise fun x y => x.key = y.key → y.esInfoLength = 0) →
    lookup StreamInfo.key k (xs.map StreamBytes.info) = some e → e.es_info_length = 0 →
    ∀ y ∈ xs, y.key = k → y.esInfoLength = 0 := by
  intro xs
  induction xs with
  | nil =>
    intro _ h
    cases h
  | cons x xs ih =>
    intro hlater h h0 y hy hk
    obtain ⟨hx, hxs⟩ := List.pairwise_cons.mp hlater
    rw [List.map_cons] at h
    by_cases hkey : x.key = k
    · rw [KeyedList.lookup_cons_self (by rw [x.key_info]; exact hkey)] at h
      cases h
      rcases List.mem_cons.mp hy with rfl | hy
      · exact h0
      · exact hx y hy (hkey.trans hk.symm)
    · rw [KeyedList.lookup_cons_ne (by rw [x.key_info]; exact hkey)] at h
      rcases List.mem_cons.mp hy with rfl | hy
      · exact absurd hk hkey
      · exact ih hxs h h0 y hy hk

/-- If the list is what it should be, the streams are apart. -/
theorem apart_of_entered (hfits : ∀ x ∈ xs, x.Fits)
    (h : xs.foldl enter [] = xs.map StreamBytes.info) :
    (∀ x ∈ xs, x.pid ≠ 0) ∧ xs.Pairwise StreamBytes.Apart := by
  have hpid : ∀ x ∈ xs, x.pid ≠ 0 := by
    refine pid_ne_zero_of_length (l := []) ?_
    rw [h, List.length_map, List.length_nil, Nat.zero_add]
  have hdescribed := descriptors_of_described hpid (by rw [h, List.map_map]; rfl)
  have hlater : xs.Pairwise fun x y => x.key = y.key → y.esInfoLength = 0 :=
    hdescribed.imp_of_mem fun _ hy h hkey => (hfits _ hy).esInfoLength_eq_zero (h hkey)
  refine ⟨hpid, List.pairwise_iff_forall_sublist.mpr fun {x y} hsub hkey => ?_⟩
  have hx : x ∈ xs := hsub.subset (by simp)
  have hy : y ∈ xs := hsub.subset (by simp)
  -- the first stream of the PID and type has no descriptors
  have htwo : 2 ≤ (xs.map StreamBytes.key).count x.key := by
    have hle := (hsub.map StreamBytes.key).count_le x.key
    rw [List.map_cons, List.map_singleton, ← hkey, List.count_cons_self,
      List.count_singleton_self] at hle
    exact hle
  rcases hfound : lookup StreamInfo.key x.key (xs.map StreamBytes.info) with _ | e
  · refine absurd ?_ (KeyedList.lookup_eq_none_iff.mp hfound)
    rw [List.map_map]
    exact List.mem_map_of_mem hx
  · have h0 := es_info_length_of_lookup hpid hlater (by rw [h]; exact hfound) htwo
    have hnone := esInfoLength_of_first hlater hfound h0
    exact ⟨hnone x hx rfl, hnone y hy hkey.symm⟩

/-- If the streams are apart, the list is what it should be. -/
theorem entered_of_apart (hfits : ∀ x ∈ xs, x.Fits) (hpid : ∀ x ∈ xs, x.pid ≠ 0)
    (hapart : xs.Pairwise StreamBytes.Apart) : xs.foldl enter [] = xs.map StreamBytes.info := by
  induction xs using List.reverseRecOn with
  | nil => rfl
  | append_singleton xs x ih =>
    obtain ⟨hxs, -, hbefore⟩ := List.pairwise_append.mp hapart
    have hx : x.pid ≠ 0 := hpid x (by simp)
    rw [List.foldl_append, List.foldl_cons, List.foldl_nil,
      ih (fun y hy => hfits y (List.mem_append_left _ hy))
        (fun y hy => hpid y (List.mem_append_left _ hy)) hxs, List.map_append, List.map_singleton]
    rcases hfound : lookup StreamInfo.key x.key (xs.map StreamBytes.info) with _ | e
    · exact enter_new hx hfound
    · obtain ⟨y, hy, rfl⟩ := List.mem_map.mp (KeyedList.mem_of_lookup hfound)
      have hkey : y.info.key = x.key := KeyedList.key_of_lookup hfound
      obtain ⟨hy0, hx0⟩ := hbefore y hy x (List.mem_singleton_self x) hkey
      have hnone := (hfits x (by simp)).descriptors_eq_nil hx0
      have hblank : x.blank = x.info := by
        rw [StreamBytes.blank, StreamBytes.info, hx0, hnone]
        rfl
      rw [enter_known hx hfound, hblank, KeyedList.modify_eq_self]
      intro e he
      obtain rfl := Option.some.inj (he.symm.trans hfound)
      rw [StreamBytes.fill, hx0, hnone]
      simp [StreamBytes.info, hy0]

/-- **The list of streams.** It is the section's exactly when no PID is zero and the streams are
apart. -/
theorem entered_iff (hfits : ∀ x ∈ xs, x.Fits) :
    xs.foldl enter [] = xs.map StreamBytes.info ↔
      (∀ x ∈ xs, x.pid ≠ 0) ∧ xs.Pairwise StreamBytes.Apart :=
  ⟨apart_of_entered hfits, fun h => entered_of_apart hfits h.1 h.2⟩

end Enter

/-! ## The second pass over the streams -/

namespace PsiSection

/-- The names of the component name descriptors among these, which begin at `pos`, can be read
within the section. -/
def NamesRead (s : PsiSection) : ℕ → List DescriptorBytes → Prop
  | _, [] => True
  | pos, d :: ds =>
    (d.tag.toNat = 0xA3 → ∃ names, componentNames s (pos + 2) = .ok names) ∧
      s.NamesRead (pos + 2 + d.content.length) ds

/-- The same, of streams. -/
def StreamNamesRead (s : PsiSection) : ℕ → List StreamBytes → Prop
  | _, [] => True
  | pos, x :: xs =>
    s.NamesRead (pos + 5) x.descriptors ∧ s.StreamNamesRead (pos + x.octets.length) xs

variable {s : PsiSection} {pos : ℕ} {l rest : List UInt8}

/-- The section goes as far as its bytes. -/
theorem size_of_drop (h : s.bytes.drop pos = l) (hl : l ≠ []) : s.size = pos + l.length := by
  have hlen := congrArg List.length h
  have hpos := List.length_pos_iff.mpr hl
  rw [List.length_drop] at hlen
  rw [size]
  omega

theorem copy_of_drop (h : s.bytes.drop pos = l ++ rest) (hrest : rest ≠ []) :
    s.copy pos l.length = .ok l := by
  have hsize := size_of_drop h (List.append_ne_nil_of_right_ne_nil l hrest)
  rw [List.length_append] at hsize
  rw [copy, if_pos (by omega), h, List.take_left]

end PsiSection

section SecondPass

variable {s : PsiSection} {pos pid type tag length : ℕ} {content rest : List UInt8}
  {streams streams' : List ElementaryStream}

theorem ElementaryStream.isFor_iff {e : ElementaryStream} :
    e.isFor pid type = true ↔ e.info.key = (pid, type) := by
  rw [ElementaryStream.isFor, Bool.and_eq_true, beq_iff_eq, beq_iff_eq]
  exact Prod.mk.injEq .. ▸ Iff.rfl

/-- A descriptor more. -/
def StreamInfo.add (d : PmtDescriptor) (e : StreamInfo) : StreamInfo :=
  { e with descriptors := e.descriptors ++ [d] }

@[simp] theorem StreamInfo.key_add (d : PmtDescriptor) (e : StreamInfo) : (e.add d).key = e.key :=
  rfl

/-- What `SetDescriptor` adds to a stream. -/
theorem info_describe {e e' : ElementaryStream} (hcontent : s.copy pos length = .ok content)
    (h : e.describe s tag length pos = .ok e') : e'.info = e.info.add ⟨tag, content⟩ := by
  obtain ⟨language, -, h⟩ := PsiSection.bind_eq_ok h
  obtain ⟨names, -, h⟩ := PsiSection.bind_eq_ok h
  rw [hcontent] at h
  obtain rfl := Except.ok.inj h
  rfl

/-- It comes to an end if there are names to read, where it reads names. -/
theorem exists_describe (e : ElementaryStream) (hcontent : s.copy pos length = .ok content)
    (h4 : pos + 4 ≤ s.size) : (∃ e', e.describe s tag length pos = .ok e') ↔
      (tag = 0xA3 → ∃ names, componentNames s pos = .ok names) := by
  constructor
  · rintro ⟨e', h⟩ htag
    obtain ⟨language, -, h⟩ := PsiSection.bind_eq_ok h
    obtain ⟨names, hnames, -⟩ := PsiSection.bind_eq_ok h
    rw [ElementaryStream.namesAfter, if_pos htag] at hnames
    exact ⟨names, hnames⟩
  · intro hnames
    obtain ⟨language, hlanguage⟩ : ∃ language, e.languageAfter s tag length pos = .ok language := by
      rw [ElementaryStream.languageAfter]
      split_ifs
      · exact ⟨_, if_pos h4⟩
      · exact ⟨_, rfl⟩
    obtain ⟨names, hnames⟩ : ∃ names, e.namesAfter s tag pos = .ok names := by
      rw [ElementaryStream.namesAfter]
      split_ifs with htag
      · exact hnames htag
      · exact ⟨_, rfl⟩
    refine ⟨{ e with
      associated_language := language
      service_component_names := names
      descriptors := e.descriptors ++ [⟨tag, content⟩] }, ?_⟩
    rw [ElementaryStream.describe, hlanguage, PsiSection.ok_bind, hnames, PsiSection.ok_bind,
      hcontent]
    rfl

/-- Another length. -/
def StreamInfo.setLength (n : ℕ) (e : StreamInfo) : StreamInfo := { e with es_info_length := n }

@[simp] theorem StreamInfo.key_setLength (n : ℕ) (e : StreamInfo) : (e.setLength n).key = e.key := rfl

theorem info_setElementaryStream : (setElementaryStream type pid streams).map ElementaryStream.info =
    if pid = 0 then streams.map ElementaryStream.info
    else streams.map ElementaryStream.info ++ [⟨type, pid, 0, []⟩] := by
  rw [setElementaryStream]
  split_ifs
  · rfl
  · exact List.map_append

theorem info_setESInfoLength (n : ℕ) :
    (setESInfoLength pid type n streams).map ElementaryStream.info =
      modify StreamInfo.key (pid, type) (StreamInfo.setLength n)
        (streams.map ElementaryStream.info) := by
  induction streams with
  | nil => rfl
  | cons e streams ih =>
    rw [setESInfoLength, List.map_cons, KeyedList.modify]
    by_cases he : e.isFor pid type = true
    · rw [if_pos he, if_pos (ElementaryStream.isFor_iff.mp he)]
      rfl
    · rw [if_neg he, if_neg (fun h => he (ElementaryStream.isFor_iff.mpr h)), List.map_cons, ih]

/-- `SetDescriptor` changes the stream that is found. -/
theorem info_setDescriptor (hcontent : s.copy pos length = .ok content) :
    ∀ {streams streams' : List ElementaryStream},
      setDescriptor s pid type tag length pos streams = .ok streams' →
      streams'.map ElementaryStream.info =
        modify StreamInfo.key (pid, type) (StreamInfo.add ⟨tag, content⟩)
          (streams.map ElementaryStream.info) := by
  intro streams
  induction streams with
  | nil =>
    intro streams' h
    obtain rfl := Except.ok.inj h
    rfl
  | cons e streams ih =>
    intro streams' h
    rw [setDescriptor] at h
    rw [List.map_cons, KeyedList.modify]
    by_cases he : e.isFor pid type = true
    · rw [if_pos he] at h
      obtain ⟨e', he', h⟩ := PsiSection.bind_eq_ok h
      obtain rfl := Except.ok.inj h
      rw [if_pos (ElementaryStream.isFor_iff.mp he), List.map_cons, info_describe hcontent he']
    · rw [if_neg he] at h
      obtain ⟨streams'', hstreams, h⟩ := PsiSection.bind_eq_ok h
      obtain rfl := Except.ok.inj h
      rw [if_neg (fun h => he (ElementaryStream.isFor_iff.mpr h)), List.map_cons, ih hstreams]

theorem exists_setDescriptor (hcontent : s.copy pos length = .ok content) (h4 : pos + 4 ≤ s.size) :
    ∀ {streams : List ElementaryStream},
      (pid, type) ∈ (streams.map ElementaryStream.info).map StreamInfo.key →
      ((∃ streams', setDescriptor s pid type tag length pos streams = .ok streams') ↔
        (tag = 0xA3 → ∃ names, componentNames s pos = .ok names)) := by
  intro streams
  induction streams with
  | nil =>
    intro hmem
    cases hmem
  | cons e streams ih =>
    intro hmem
    rw [setDescriptor]
    by_cases he : e.isFor pid type = true
    · rw [if_pos he, ← exists_describe e hcontent h4]
      constructor
      · rintro ⟨streams', h⟩
        obtain ⟨e', he', -⟩ := PsiSection.bind_eq_ok h
        exact ⟨e', he'⟩
      · rintro ⟨e', he'⟩
        rw [he']
        exact ⟨_, rfl⟩
    · rw [List.map_cons, List.map_cons, List.mem_cons] at hmem
      rcases hmem with hkey | hmem
      · exact absurd (ElementaryStream.isFor_iff.mpr hkey.symm) he
      · rw [if_neg he, ← ih hmem]
        constructor
        · rintro ⟨streams', h⟩
          obtain ⟨streams'', hstreams, -⟩ := PsiSection.bind_eq_ok h
          exact ⟨streams'', hstreams⟩
        · rintro ⟨streams'', hstreams⟩
          rw [hstreams]
          exact ⟨_, rfl⟩

/-- Some descriptors more. -/
def StreamInfo.addAll (ds : List DescriptorBytes) (e : StreamInfo) : StreamInfo :=
  { e with descriptors := e.descriptors ++ ds.map DescriptorBytes.info }

theorem copy_content {d : DescriptorBytes} (hat : s.bytes.drop pos = d.octets ++ rest)
    (hrest : rest ≠ []) : s.copy (pos + 2) d.content.length = .ok d.content := by
  refine @PsiSection.copy_of_drop _ _ _ rest ?_ hrest
  rw [← List.drop_drop, hat]
  rfl

theorem drop_octets {d : DescriptorBytes} (hat : s.bytes.drop pos = d.octets ++ rest) :
    s.bytes.drop (pos + 2 + d.content.length) = rest := by
  rw [Nat.add_assoc, Nat.add_comm 2, ← d.length_octets, ← List.drop_drop, hat, List.drop_left]

/-- The descriptors of a stream. -/
theorem info_passDescriptors (hrest : rest ≠ []) : ∀ (ds : List DescriptorBytes) {pos : ℕ}
    {streams streams' : List ElementaryStream},
    s.bytes.drop pos = descriptorOctets ds ++ rest →
    passDescriptors false s pid type pos ds streams = .ok streams' →
    streams'.map ElementaryStream.info =
      modify StreamInfo.key (pid, type) (StreamInfo.addAll ds)
        (streams.map ElementaryStream.info) := by
  intro ds
  induction ds with
  | nil =>
    intro pos streams streams' _ h
    obtain rfl := Except.ok.inj h
    refine (KeyedList.modify_eq_self fun e _ => ?_).symm
    simp [StreamInfo.addAll]
  | cons d ds ih =>
    intro pos streams streams' hat h
    rw [descriptorOctets_cons, List.append_assoc] at hat
    have hrest' := List.append_ne_nil_of_right_ne_nil (descriptorOctets ds) hrest
    obtain ⟨streams'', hset, h⟩ := PsiSection.bind_eq_ok h
    rw [ih (drop_octets hat) h, info_setDescriptor (copy_content hat hrest') hset,
      KeyedList.modify_modify (StreamInfo.key_add _)]
    congr 1
    funext e
    simp [StreamInfo.addAll, StreamInfo.add, DescriptorBytes.info]

theorem exists_passDescriptors (hrest : 4 ≤ rest.length) : ∀ (ds : List DescriptorBytes) {pos : ℕ}
    {streams : List ElementaryStream},
    s.bytes.drop pos = descriptorOctets ds ++ rest →
    (pid, type) ∈ (streams.map ElementaryStream.info).map StreamInfo.key →
    ((∃ streams', passDescriptors false s pid type pos ds streams = .ok streams') ↔
      s.NamesRead pos ds) := by
  have hne : rest ≠ [] := by
    rintro rfl
    cases hrest
  intro ds
  induction ds with
  | nil => exact fun _ _ => iff_of_true ⟨_, rfl⟩ trivial
  | cons d ds ih =>
    intro pos streams hat hmem
    rw [descriptorOctets_cons, List.append_assoc] at hat
    have hne' := List.append_ne_nil_of_right_ne_nil (descriptorOctets ds) hne
    have hcontent := copy_content hat hne'
    have h4 : pos + 2 + 4 ≤ s.size := by
      have hsize := PsiSection.size_of_drop hat (List.append_ne_nil_of_right_ne_nil _ hne')
      rw [List.length_append, List.length_append, d.length_octets] at hsize
      omega
    rw [PsiSection.NamesRead, ← exists_setDescriptor hcontent h4 hmem]
    constructor
    · rintro ⟨streams', h⟩
      obtain ⟨streams'', hset, h⟩ := PsiSection.bind_eq_ok h
      refine ⟨⟨_, hset⟩, (ih (drop_octets hat) ?_).mp ⟨_, h⟩⟩
      rw [info_setDescriptor hcontent hset, KeyedList.map_modify (StreamInfo.key_add _)]
      exact hmem
    · rintro ⟨⟨streams'', hset⟩, hnames⟩
      have hmem' : (pid, type) ∈ (streams''.map ElementaryStream.info).map StreamInfo.key := by
        rw [info_setDescriptor hcontent hset, KeyedList.map_modify (StreamInfo.key_add _)]
        exact hmem
      obtain ⟨streams', h⟩ := (ih (drop_octets hat) hmem').mpr hnames
      refine ⟨streams', ?_⟩
      have hset' : passDescriptor false s pid type (pos + 2) d streams = .ok streams'' := hset
      rw [passDescriptors, hset']
      exact h

/-- The head of a stream. -/
theorem info_passHead (x : StreamBytes) : (passHead false x streams).map ElementaryStream.info =
    modify StreamInfo.key x.key (StreamInfo.setLength x.esInfoLength)
      (if x.pid = 0 then streams.map ElementaryStream.info
        else streams.map ElementaryStream.info ++ [x.blank]) := by
  rw [passHead, if_neg Bool.false_ne_true, info_setESInfoLength, info_setElementaryStream]
  rfl

/-- **The second pass.** The streams are entered into the list, one after the other. -/
theorem info_passStreams (hrest : rest ≠ []) : ∀ (xs : List StreamBytes) {pos : ℕ}
    {streams streams' : List ElementaryStream},
    s.bytes.drop pos = streamOctets xs ++ rest →
    passStreams false s pos xs streams = .ok streams' →
    streams'.map ElementaryStream.info = xs.foldl enter (streams.map ElementaryStream.info) := by
  intro xs
  induction xs with
  | nil =>
    intro pos streams streams' _ h
    obtain rfl := Except.ok.inj h
    rfl
  | cons x xs ih =>
    intro pos streams streams' hat h
    rw [streamOctets_cons, List.append_assoc] at hat
    have hrest' := List.append_ne_nil_of_right_ne_nil (streamOctets xs) hrest
    have hds : s.bytes.drop (pos + 5) =
        descriptorOctets x.descriptors ++ (streamOctets xs ++ rest) := by
      rw [← List.drop_drop, hat, StreamBytes.octets, List.append_assoc]
      rfl
    obtain ⟨streams'', hpass, h⟩ := PsiSection.bind_eq_ok h
    have hx : streams''.map ElementaryStream.info =
        enter (streams.map ElementaryStream.info) x := by
      have hdescribed := info_passDescriptors hrest' x.descriptors hds hpass
      rw [info_passHead] at hdescribed
      exact hdescribed.trans (KeyedList.modify_modify (StreamInfo.key_setLength _))
    rw [ih (by rw [← List.drop_drop, hat, List.drop_left]) h, List.foldl_cons, hx]

/-- It comes to an end if there are names to read, where it reads names. -/
theorem exists_passStreams (hrest : 4 ≤ rest.length) : ∀ (xs : List StreamBytes) {pos : ℕ}
    (streams : List ElementaryStream),
    s.bytes.drop pos = streamOctets xs ++ rest → (∀ x ∈ xs, x.pid ≠ 0) →
    ((∃ streams', passStreams false s pos xs streams = .ok streams') ↔
      s.StreamNamesRead pos xs) := by
  intro xs
  induction xs with
  | nil => exact fun _ _ _ => iff_of_true ⟨_, rfl⟩ trivial
  | cons x xs ih =>
    intro pos streams hat hpid
    rw [streamOctets_cons, List.append_assoc] at hat
    have hds : s.bytes.drop (pos + 5) =
        descriptorOctets x.descriptors ++ (streamOctets xs ++ rest) := by
      rw [← List.drop_drop, hat, StreamBytes.octets, List.append_assoc]
      rfl
    have hnext : s.bytes.drop (pos + x.octets.length) = streamOctets xs ++ rest := by
      rw [← List.drop_drop, hat, List.drop_left]
    have hx : x.pid ≠ 0 := hpid x List.mem_cons_self
    have hxs : ∀ y ∈ xs, y.pid ≠ 0 := fun y hy => hpid y (List.mem_cons_of_mem x hy)
    have hmem : (x.pid, x.type) ∈
        ((passHead false x streams).map ElementaryStream.info).map StreamInfo.key := by
      rw [info_passHead, KeyedList.map_modify (StreamInfo.key_setLength _), if_neg hx, List.map_append]
      exact List.mem_append_right _ (List.mem_singleton_self _)
    have hlen : 4 ≤ (streamOctets xs ++ rest).length := by
      rw [List.length_append]
      omega
    rw [PsiSection.StreamNamesRead, ← exists_passDescriptors hlen x.descriptors hds hmem]
    constructor
    · rintro ⟨streams', h⟩
      obtain ⟨streams'', hpass, h⟩ := PsiSection.bind_eq_ok h
      exact ⟨⟨_, hpass⟩, (ih _ hnext hxs).mp ⟨_, h⟩⟩
    · rintro ⟨⟨streams'', hpass⟩, hnames⟩
      obtain ⟨streams', h⟩ := (ih streams'' hnext hxs).mpr hnames
      refine ⟨streams', ?_⟩
      rw [passStreams, hpass]
      exact h

end SecondPass

end MediaFramework
