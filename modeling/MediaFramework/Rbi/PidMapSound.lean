import Mathlib.Algebra.Order.Group.Multiset
import Mathlib.Data.Multiset.Filter
import Mathlib.Tactic.Common
import MediaFramework.Rbi.PidMap

/-!
# Which PID maps are sound (`RBIStreamProcessor::startInsertion`)

A map is sound when a stream of the ad goes to one of the network with its type, no two go to the
same, nothing is replicated onto a stream that has one of the ad, and no component is read that
there is not.

The passes by order of the PMTs are the ones that fail. The loop over the video ends with the ad's
components only, and the search in order compares a component behind the ad's last one, at the
first stream of the network it could take. So how many streams are mapped by language decides: a
stream of the ad with any language takes the first one of its type that is left, so these are as
many as the types have in common.
-/

namespace MediaFramework

namespace PidMap

/-! ## What is asked of a map, and of the streams -/

/-- The map of a successful insertion is sound, and nothing is read outside of the arrays. -/
structure Sound (net ad : Streams) (r : Bool × Build) : Prop where
  video : r.1 = true → ∀ a ∈ ad.m_videoComponents, r.2.m_pidMap a.pid ≠ 0 →
    ∃ n ∈ net.m_videoComponents, n.pid = r.2.m_pidMap a.pid ∧
      sameVideoType a.streamType n.streamType = true
  audio : r.1 = true → ∀ a ∈ ad.m_audioComponents, r.2.m_pidMap a.pid ≠ 0 →
    ∃ n ∈ net.m_audioComponents, n.pid = r.2.m_pidMap a.pid ∧ a.streamType = n.streamType
  one : r.1 = true → ∀ a ∈ ad.m_audioComponents, ∀ a' ∈ ad.m_audioComponents,
    r.2.m_pidMap a.pid ≠ 0 → r.2.m_pidMap a.pid = r.2.m_pidMap a'.pid → a.pid = a'.pid
  replicated : r.1 = true → ∀ t ∈ r.2.m_replicateAudioTargetPids,
    ∀ a ∈ ad.m_videoComponents ++ ad.m_audioComponents, r.2.m_pidMap a.pid ≠ t
  inside : r.2.outside = false

/-- Both have video or none, both have audio or none, and the PAT and PMT of both are there. -/
def Admitted (net ad : Streams) : Prop :=
  (net.m_videoComponents = [] ↔ ad.m_videoComponents = []) ∧
    (net.m_audioComponents = [] ↔ ad.m_audioComponents = []) ∧
    net.m_havePAT = true ∧ net.m_havePMT = true ∧ ad.m_havePAT = true ∧ ad.m_havePMT = true

/-- The types of the video agree, as far as both have video. -/
def VideoAgrees (ns as : List Component) : Prop :=
  ∀ p ∈ as.zip ns, sameVideoType p.1.streamType p.2.streamType = true

/-- How many types the network's audio has in common with the ad's that has a language. -/
def commonTypes (net ad : List Component) : ℕ :=
  Multiset.card ((net.map Component.streamType : Multiset ℕ) ∩
    ((ad.filter fun a => a.associatedLanguage.isSome).map Component.streamType : Multiset ℕ))

/-- The audio that is left is taken in order. -/
def ByOrder (net ad : List Component) (m_audioReplicationEnabled : Bool) : Prop :=
  m_audioReplicationEnabled = false ∧ net.length < ad.length ∧
    commonTypes net ad < net.length ∧ commonTypes net ad < maxAudioPidCount

/-! ## What the map is like after some of the ad's audio -/

/-- After the video, and some of the audio: each stream goes to one of its type, the network's
audio that is taken is noted, and there is one stream for each of it. -/
structure Mapped (net ad : Streams) (done : List Component) (b : Build) : Prop where
  entry : ∀ x, b.m_pidMap x ≠ 0 →
    (∃ a ∈ ad.m_videoComponents, ∃ n ∈ net.m_videoComponents, a.pid = x ∧ n.pid = b.m_pidMap x ∧
      sameVideoType a.streamType n.streamType = true) ∨
    (∃ a ∈ done, ∃ n ∈ net.m_audioComponents, a.pid = x ∧ n.pid = b.m_pidMap x ∧
      a.streamType = n.streamType ∧ b.m_pidIsMapped n.pid = true)
  one : ∀ a ∈ done, ∀ a' ∈ done, b.m_pidMap a.pid ≠ 0 → b.m_pidMap a.pid = b.m_pidMap a'.pid →
    a.pid = a'.pid
  outside : b.outside = false
  targets : b.m_replicateAudioTargetPids = []
  count : b.audioMappedCount + (net.m_audioComponents.filter fun n => !b.m_pidIsMapped n.pid).length =
    net.m_audioComponents.length

/-! ## Video -/

section Video

variable {mem : Memory} {b : Build}

/-- Where types do not agree the loop ends, and nothing has been read that there is not. -/
theorem videoPass_of_not_agrees (as : List Component) : ∀ {ns : List Component} {i : ℕ} {b : Build},
    ¬ VideoAgrees ns as →
      (videoPass mem as ns i b).1 = false ∧ (videoPass mem as ns i b).2.outside = b.outside := by
  induction as with
  | nil => exact fun h => absurd (fun p hp => absurd hp List.not_mem_nil) h
  | cons a as ih =>
    intro ns i b h
    rcases ns with _ | ⟨n, ns⟩
    · exact absurd (fun p hp => absurd hp (by simp)) h
    rw [videoPass]
    split_ifs with hsame
    · refine ih (b := b.mapVideo a n) fun hrest => h fun p hp => ?_
      rcases List.mem_cons.mp hp with rfl | hp
      · exact hsame
      · exact hrest p hp
    · exact ⟨rfl, rfl⟩

/-- `outside` stays set. -/
theorem outside_videoPass (as : List Component) : ∀ {ns : List Component} {i : ℕ} {b : Build},
    b.outside = true → (videoPass mem as ns i b).2.outside = true := by
  induction as with
  | nil => exact fun h => h
  | cons a as ih =>
    intro ns i b h
    rcases ns with _ | ⟨n, ns⟩
    · rw [videoPass]
      split_ifs
      · exact ih rfl
      · rfl
    · rw [videoPass]
      split_ifs
      · exact ih h
      · exact h

/-- Where they agree, and the ad has more of them, one is read that there is not. -/
theorem videoPass_of_lt (as : List Component) : ∀ {ns : List Component} {i : ℕ} {b : Build},
    VideoAgrees ns as → ns.length < as.length → (videoPass mem as ns i b).2.outside = true := by
  induction as with
  | nil => exact fun _ h => absurd h (Nat.not_lt_zero _)
  | cons a as ih =>
    intro ns i b h hlt
    rcases ns with _ | ⟨n, ns⟩
    · rw [videoPass]
      split_ifs
      · exact outside_videoPass as rfl
      · rfl
    · rw [videoPass, if_pos (h (a, n) List.mem_cons_self)]
      exact ih (fun p hp => h p (List.mem_cons_of_mem _ hp)) (Nat.lt_of_succ_lt_succ hlt)

/-- A PID fits in an `unsigned short`. -/
theorem Streams.pid_mod (net : Streams) {n : Component}
    (h : n ∈ net.m_videoComponents ++ net.m_audioComponents) : n.pid % 2 ^ 16 = n.pid :=
  Nat.mod_eq_of_lt ((net.pid_lt n h).trans (by decide))

variable {net ad : Streams}

theorem Mapped.mapVideo {a n : Component} (h : Mapped net ad [] b)
    (ha : a ∈ ad.m_videoComponents) (hn : n ∈ net.m_videoComponents)
    (hsame : sameVideoType a.streamType n.streamType = true) :
    Mapped net ad [] (b.mapVideo a n) where
  entry x hx := by
    have hmod := net.pid_mod (List.mem_append_left _ hn)
    by_cases hxa : x = a.pid
    · subst hxa
      have hnew : (b.mapVideo a n).m_pidMap a.pid = n.pid :=
        (Function.update_self _ _ _).trans hmod
      exact .inl ⟨a, ha, n, hn, rfl, hnew.symm, hsame⟩
    · have hold : (b.mapVideo a n).m_pidMap x = b.m_pidMap x := Function.update_of_ne hxa _ _
      rw [hold] at hx ⊢
      exact h.entry x hx
  one := fun a ha => absurd ha List.not_mem_nil
  outside := h.outside
  targets := h.targets
  count := h.count

/-- Where the types agree and the network has enough of them, all video is mapped. -/
theorem videoPass_of_le (as : List Component) : ∀ {ns : List Component} {i : ℕ} {b : Build},
    as ⊆ ad.m_videoComponents → ns ⊆ net.m_videoComponents → VideoAgrees ns as →
      as.length ≤ ns.length → Mapped net ad [] b →
      ∃ b', videoPass mem as ns i b = (true, b') ∧ Mapped net ad [] b' ∧
        b'.m_pidIsMapped = b.m_pidIsMapped ∧ b'.audioMappedCount = b.audioMappedCount := by
  induction as with
  | nil => exact fun _ _ _ _ h => ⟨_, rfl, h, rfl, rfl⟩
  | cons a as ih =>
    intro ns i b has hns h hle hb
    rcases ns with _ | ⟨n, ns⟩
    · exact absurd hle (Nat.not_succ_le_zero _)
    have hsame : sameVideoType a.streamType n.streamType = true := h (a, n) List.mem_cons_self
    rw [videoPass, if_pos hsame]
    exact ih (List.subset_of_cons_subset has) (List.subset_of_cons_subset hns)
      (fun p hp => h p (List.mem_cons_of_mem _ hp)) (Nat.le_of_succ_le_succ hle)
      (hb.mapVideo (has List.mem_cons_self) (hns List.mem_cons_self) hsame)

end Video

/-! ## Audio, by language -/

section Audio

variable {net ad : Streams} {b : Build} {done : List Component} {a n : Component}

/-- Two of the network's components that share a PID are one kind of component. -/
theorem Streams.video_ne_audio (net : Streams) {v c : Component} (hv : v ∈ net.m_videoComponents)
    (hc : c ∈ net.m_audioComponents) : v.pid ≠ c.pid := by
  have hnodup := net.nodup
  rw [List.map_append, List.nodup_append] at hnodup
  exact hnodup.2.2 _ (List.mem_map_of_mem hv) _ (List.mem_map_of_mem hc)

/-- A stream of the network that a stream of the ad takes. -/
def takes (b : Build) (a n : Component) : Bool :=
  !b.m_pidIsMapped n.pid && (b.m_pidMap a.pid == 0 && n.streamType == a.streamType)

/-- The first reason to map a stream is one for the second, too. -/
theorem byLanguage_or_byType (b : Build) (a n : Component) :
    (!b.m_pidIsMapped n.pid && (byLanguage b a n || byType b a n)) = takes b a n := by
  rw [takes, byLanguage, byType, pointersDiffer, Bool.or_true, Bool.and_true]
  cases b.m_pidMap a.pid == 0 && n.streamType == a.streamType <;> simp

/-- The types of the network's audio that is not taken. -/
def freeTypes (net : Streams) (b : Build) : Multiset ℕ :=
  ((net.m_audioComponents.filter fun n => !b.m_pidIsMapped n.pid).map Component.streamType : List ℕ)

/-- One stream more is taken, one less is left. -/
theorem filter_free_perm {taken : ℕ → Bool} (cs : List Component) (hnodup : (cs.map Component.pid).Nodup)
    (hn : n ∈ cs) (hfree : taken n.pid = false) :
    (cs.filter fun c => !taken c.pid).Perm
      (n :: cs.filter fun c => !Function.update taken n.pid true c.pid) := by
  induction cs with
  | nil => exact absurd hn List.not_mem_nil
  | cons c cs ih =>
    rw [List.map_cons, List.nodup_cons] at hnodup
    rcases List.mem_cons.mp hn with rfl | hn
    · have hrest : (cs.filter fun c => !Function.update taken n.pid true c.pid) =
          cs.filter fun c => !taken c.pid := by
        refine List.filter_congr fun c hc => ?_
        have hne : c.pid ≠ n.pid := fun heq => hnodup.1 (heq ▸ List.mem_map_of_mem hc)
        rw [Function.update_of_ne hne]
      rw [List.filter_cons_of_pos (by simp [hfree]), List.filter_cons_of_neg (by simp), hrest]
    · have hne : c.pid ≠ n.pid := fun heq => hnodup.1 (heq ▸ List.mem_map_of_mem hn)
      have hperm := ih hnodup.2 hn
      by_cases hc : taken c.pid = true
      · rw [List.filter_cons_of_neg (by simp [hc]),
          List.filter_cons_of_neg (by simp [Function.update_of_ne hne, hc])]
        exact hperm
      · rw [List.filter_cons_of_pos (by simpa using hc),
          List.filter_cons_of_pos (by simpa [Function.update_of_ne hne] using hc)]
        exact (hperm.cons c).trans (.swap n c _)

/-- What a search by language does: it takes a stream of the type, if one is left, for a stream
that is not mapped. -/
theorem languageStep_cases (net : List Component) (b : Build) (a : Component) :
    (a.associatedLanguage = none ∧ languageStep net b a = b) ∨
    (a.associatedLanguage ≠ none ∧ ∃ n ∈ net, b.m_pidIsMapped n.pid = false ∧
      b.m_pidMap a.pid = 0 ∧ n.streamType = a.streamType ∧
      ∃ j, languageStep net b a = { b with j }.mapAudio a n) ∨
    (a.associatedLanguage ≠ none ∧ (∀ n ∈ net, b.m_pidIsMapped n.pid = false →
      b.m_pidMap a.pid = 0 → n.streamType ≠ a.streamType) ∧
      ∃ j, languageStep net b a = { b with j }) := by
  rcases hlang : a.associatedLanguage with _ | language
  · exact .inl ⟨rfl, by rw [languageStep, hlang]; rfl⟩
  have hstep : languageStep net b a =
      (net[net.findIdx (takes b a)]?).elim { b with j := net.findIdx (takes b a) }
        ({ b with j := net.findIdx (takes b a) }.mapAudio a) := by
    rw [languageStep, hlang]
    simp only [byLanguage_or_byType]
    rcases net[net.findIdx (takes b a)]? with _ | n <;> rfl
  rcases hfind : net[net.findIdx (takes b a)]? with _ | n
  · refine .inr (.inr ⟨by simp, fun n hn hfree hmap htype => ?_, _,
      by rw [hstep, hfind, Option.elim_none]⟩)
    rw [List.getElem?_eq_none_iff, ← not_lt, List.findIdx_lt_length] at hfind
    exact hfind ⟨n, hn, by simp [takes, hfree, hmap, htype]⟩
  · obtain ⟨hlt, hget⟩ := List.getElem?_eq_some_iff.mp hfind
    have hholds := List.findIdx_getElem (w := hlt)
    rw [hget] at hholds
    simp only [takes, Bool.and_eq_true, Bool.not_eq_true', beq_iff_eq] at hholds
    exact .inr (.inl ⟨by simp, n, hget ▸ List.getElem_mem hlt, hholds.1, hholds.2.1, hholds.2.2, _,
      by rw [hstep, hfind, Option.elim_some]⟩)

theorem Streams.audio_nodup (s : Streams) : (s.m_audioComponents.map Component.pid).Nodup := by
  have hnodup := s.nodup
  rw [List.map_append, List.nodup_append] at hnodup
  exact hnodup.2.1

/-- A stream is not mapped before its turn. -/
theorem Mapped.not_mapped {rest : List Component} (h : Mapped net ad done b)
    (hsplit : ad.m_audioComponents = done ++ a :: rest) : b.m_pidMap a.pid = 0 := by
  have ha : a ∈ ad.m_audioComponents := by rw [hsplit]; simp
  by_contra hmapped
  rcases h.entry a.pid hmapped with ⟨v, hv, -, -, hpid, -⟩ | ⟨a', ha', -, -, hpid, -⟩
  · exact ad.video_ne_audio hv ha hpid
  · have hnodup := ad.audio_nodup
    rw [hsplit, List.map_append, List.nodup_append] at hnodup
    exact hnodup.2.2 _ (List.mem_map_of_mem ha') _ (List.mem_map_of_mem List.mem_cons_self) hpid

theorem Mapped.setIndex (h : Mapped net ad done b) (j : ℕ) : Mapped net ad done { b with j } :=
  ⟨h.entry, h.one, h.outside, h.targets, h.count⟩

/-- A stream that is not mapped takes nothing from the others. -/
theorem Mapped.skip (h : Mapped net ad done b) (hnone : b.m_pidMap a.pid = 0) :
    Mapped net ad (done ++ [a]) b where
  entry x hx := by
    rcases h.entry x hx with hvideo | ⟨a', ha', n, hn, hrest⟩
    · exact .inl hvideo
    · exact .inr ⟨a', List.mem_append_left _ ha', n, hn, hrest⟩
  one a₁ h₁ a₂ h₂ hne heq := by
    rcases List.mem_append.mp h₁ with h₁ | h₁
    · rcases List.mem_append.mp h₂ with h₂ | h₂
      · exact h.one a₁ h₁ a₂ h₂ hne heq
      · rw [List.mem_singleton.mp h₂, hnone] at heq
        exact absurd heq hne
    · rw [List.mem_singleton.mp h₁] at hne
      exact absurd hnone hne
  outside := h.outside
  targets := h.targets
  count := h.count

/-- No PID is mapped to a stream that is left. -/
theorem Mapped.apart (h : Mapped net ad done b) (hn : n ∈ net.m_audioComponents)
    (hfree : b.m_pidIsMapped n.pid = false) (x : ℕ) : b.m_pidMap x ≠ n.pid := by
  intro hx
  have hpos := net.pid_pos n (List.mem_append_right _ hn)
  rcases h.entry x (by omega) with ⟨-, -, v, hv, -, hpid, -⟩ | ⟨-, -, c, hc, -, hpid, -, htaken⟩
  · exact net.video_ne_audio hv hn (hpid.trans hx)
  · rw [hpid, hx, hfree] at htaken
    exact absurd htaken (by decide)

/-- A stream takes one of its type that is left. -/
theorem Mapped.mapAudio (h : Mapped net ad done b) (hn : n ∈ net.m_audioComponents)
    (hfree : b.m_pidIsMapped n.pid = false)
    (htype : n.streamType = a.streamType) : Mapped net ad (done ++ [a]) (b.mapAudio a n) := by
  have hmod := net.pid_mod (List.mem_append_right _ hn)
  have hself : (b.mapAudio a n).m_pidMap a.pid = n.pid := (Function.update_self _ _ _).trans hmod
  have hother : ∀ x ≠ a.pid, (b.mapAudio a n).m_pidMap x = b.m_pidMap x :=
    fun x hx => Function.update_of_ne hx _ _
  have hapart := h.apart hn hfree
  refine ⟨fun x hx => ?_, fun a₁ h₁ a₂ h₂ hne heq => ?_, h.outside, h.targets, ?_⟩
  · by_cases hxa : x = a.pid
    · subst hxa
      exact .inr ⟨a, by simp, n, hn, rfl, hself.symm, htype.symm, Function.update_self _ _ _⟩
    · rw [hother x hxa] at hx ⊢
      rcases h.entry x hx with hvideo | ⟨a', ha', c, hc, hpid, hto, hsame, htaken⟩
      · exact .inl hvideo
      · refine .inr ⟨a', List.mem_append_left _ ha', c, hc, hpid, hto, hsame, ?_⟩
        by_cases hcn : c.pid = n.pid
        · rw [hcn]
          exact Function.update_self _ _ _
        · exact (Function.update_of_ne hcn _ _).trans htaken
  · have hdone : ∀ c ∈ done ++ [a], c.pid ≠ a.pid → c ∈ done := fun c hc hca =>
      (List.mem_append.mp hc).resolve_right fun hlast => hca (by rw [List.mem_singleton.mp hlast])
    by_cases h₁a : a₁.pid = a.pid
    · by_cases h₂a : a₂.pid = a.pid
      · exact h₁a.trans h₂a.symm
      · rw [h₁a, hself, hother _ h₂a] at heq
        exact absurd heq.symm (hapart _)
    · rw [hother _ h₁a] at hne heq
      by_cases h₂a : a₂.pid = a.pid
      · rw [h₂a, hself] at heq
        exact absurd heq (hapart _)
      · rw [hother _ h₂a] at heq
        exact h.one a₁ (hdone a₁ h₁ h₁a) a₂ (hdone a₂ h₂ h₂a) hne heq
  · have hperm := filter_free_perm net.m_audioComponents net.audio_nodup hn hfree
    have hcount := h.count
    rw [hperm.length_eq, List.length_cons] at hcount
    rw [← hcount]
    exact Nat.add_right_comm _ _ _

/-- One of the types is taken. -/
theorem freeTypes_mapAudio (hn : n ∈ net.m_audioComponents) (hfree : b.m_pidIsMapped n.pid = false) :
    freeTypes net b = n.streamType ::ₘ freeTypes net (b.mapAudio a n) := by
  have hperm := (filter_free_perm net.m_audioComponents net.audio_nodup hn hfree).map
    Component.streamType
  rw [freeTypes, Multiset.coe_eq_coe.mpr hperm]
  rfl

/-- The types of the ad's audio that has a language. -/
def languageTypes (as : List Component) : Multiset ℕ :=
  ((as.filter fun a => a.associatedLanguage.isSome).map Component.streamType : List ℕ)

theorem languageTypes_cons_none (as : List Component) (h : a.associatedLanguage = none) :
    languageTypes (a :: as) = languageTypes as := by
  rw [languageTypes, List.filter_cons_of_neg (by simp [h])]
  rfl

theorem languageTypes_cons_some (as : List Component) (h : a.associatedLanguage ≠ none) :
    languageTypes (a :: as) = a.streamType ::ₘ languageTypes as := by
  rw [languageTypes, List.filter_cons_of_pos (by simpa using Option.isSome_iff_ne_none.mpr h)]
  rfl

/-- **A search by language.** What is mapped stays sound, and as many streams as have types in
common with what is left are still to be mapped. -/
theorem Mapped.search {rest : List Component} (h : Mapped net ad done b)
    (hsplit : ad.m_audioComponents = done ++ a :: rest) :
    Mapped net ad (done ++ [a]) (languageStep net.m_audioComponents b a) ∧
      (languageStep net.m_audioComponents b a).audioMappedCount +
          Multiset.card (freeTypes net (languageStep net.m_audioComponents b a) ∩
            languageTypes rest) =
        b.audioMappedCount + Multiset.card (freeTypes net b ∩ languageTypes (a :: rest)) := by
  have hnone := h.not_mapped hsplit
  rcases languageStep_cases net.m_audioComponents b a with ⟨hlang, hstep⟩ |
    ⟨hlang, n, hn, hfree, -, htype, j, hstep⟩ | ⟨hlang, hnot, j, hstep⟩
  · rw [hstep, languageTypes_cons_none rest hlang]
    exact ⟨h.skip hnone, rfl⟩
  · rw [hstep, languageTypes_cons_some rest hlang]
    refine ⟨(h.setIndex j).mapAudio hn hfree htype, ?_⟩
    rw [freeTypes_mapAudio (a := a) hn hfree, htype, ← Multiset.cons_inter_distrib,
      Multiset.card_cons]
    show b.audioMappedCount + 1 + _ = _
    rw [Nat.add_right_comm]
    rfl
  · rw [hstep, languageTypes_cons_some rest hlang]
    refine ⟨(h.setIndex j).skip hnone, ?_⟩
    have hout : a.streamType ∉ freeTypes net b := by
      intro hmem
      rw [freeTypes, Multiset.mem_coe, List.mem_map] at hmem
      obtain ⟨n, hn, htype⟩ := hmem
      rw [List.mem_filter, Bool.not_eq_true'] at hn
      exact hnot n hn.1 hn.2 hnone htype
    rw [Multiset.inter_comm, Multiset.inter_comm _ (a.streamType ::ₘ _),
      Multiset.cons_inter_of_neg _ hout]
    rfl

/-- **All searches by language.** -/
theorem Mapped.searches (rest : List Component) : ∀ {done : List Component} {b : Build},
    Mapped net ad done b → ad.m_audioComponents = done ++ rest →
      Mapped net ad ad.m_audioComponents (rest.foldl (languageStep net.m_audioComponents) b) ∧
        (rest.foldl (languageStep net.m_audioComponents) b).audioMappedCount =
          b.audioMappedCount + Multiset.card (freeTypes net b ∩ languageTypes rest) := by
  induction rest with
  | nil =>
    intro done b h hsplit
    rw [List.append_nil] at hsplit
    rw [hsplit]
    exact ⟨h, by simp [languageTypes]⟩
  | cons a rest ih =>
    intro done b h hsplit
    obtain ⟨hstep, hcount⟩ := h.search hsplit
    obtain ⟨hall, hmapped⟩ := ih hstep (by rw [hsplit, List.append_assoc]; rfl)
    exact ⟨hall, hmapped.trans hcount⟩

end Audio

/-! ## Audio that is left -/

section Remaining

variable {mem : Memory} {net ad : Streams} {b : Build}

theorem chooseSource_spec (b : Build) (as : List Component) (c : Component) :
    (b.chooseSource as c).m_pidMap = b.m_pidMap ∧ (b.chooseSource as c).outside = b.outside ∧
      (b.chooseSource as c).m_replicateAudioTargetPids = b.m_replicateAudioTargetPids := by
  rw [Build.chooseSource]
  split_ifs
  · split
    · exact ⟨rfl, rfl, rfl⟩
    · exact ⟨rfl, rfl, rfl⟩
  · exact ⟨rfl, rfl, rfl⟩

/-- Replication changes nothing in the map, and takes a stream that no audio of the ad has. -/
theorem replicateStep_spec (as : List Component) (b : Build) (c : Component) :
    (replicateStep as b c).m_pidMap = b.m_pidMap ∧ (replicateStep as b c).outside = b.outside ∧
      ∀ t ∈ (replicateStep as b c).m_replicateAudioTargetPids,
        t ∈ b.m_replicateAudioTargetPids ∨ (c.pid = t ∧ ∀ a ∈ as, b.m_pidMap a.pid ≠ t) := by
  obtain ⟨hmap, hout, htargets⟩ := chooseSource_spec b as c
  rw [replicateStep, Build.replicateOnto]
  split_ifs with hany
  · exact ⟨rfl, rfl, fun t ht => .inl ht⟩
  · refine ⟨hmap, hout, fun t ht => ?_⟩
    have ht' : t ∈ (b.chooseSource as c).m_replicateAudioTargetPids ++ [c.pid] := ht
    rw [htargets, List.mem_append, List.mem_singleton] at ht'
    refine ht'.imp_right fun heq => ⟨heq.symm, fun a ha hto => hany ?_⟩
    rw [List.any_eq_true]
    exact ⟨a, ha, by rw [hto, heq]; exact beq_self_eq_true _⟩
  · exact ⟨hmap, hout, fun t ht => .inl (htargets ▸ ht)⟩

/-- **All replications.** -/
theorem replicate_foldl (as : List Component) (cs : List Component) : ∀ b : Build,
    (cs.foldl (replicateStep as) b).m_pidMap = b.m_pidMap ∧
      (cs.foldl (replicateStep as) b).outside = b.outside ∧
      ∀ t ∈ (cs.foldl (replicateStep as) b).m_replicateAudioTargetPids,
        t ∈ b.m_replicateAudioTargetPids ∨
          ∃ c ∈ cs, c.pid = t ∧ ∀ a ∈ as, b.m_pidMap a.pid ≠ t := by
  induction cs with
  | nil => exact fun b => ⟨rfl, rfl, fun t ht => .inl ht⟩
  | cons c cs ih =>
    intro b
    obtain ⟨hmap, hout, htargets⟩ := replicateStep_spec as b c
    obtain ⟨hmap', hout', htargets'⟩ := ih (replicateStep as b c)
    refine ⟨hmap'.trans hmap, hout'.trans hout, fun t ht => ?_⟩
    rcases htargets' t ht with hold | ⟨c', hc', hpid, hnot⟩
    · refine (htargets t hold).imp_right fun hnew => ?_
      exact ⟨c, List.mem_cons_self, hnew⟩
    · rw [hmap] at hnot
      exact .inr ⟨c', List.mem_cons_of_mem _ hc', hpid, hnot⟩

/-- `outside` stays set. -/
theorem outside_orderSearch {ns as : List Component} {a : Component} (rest : List Component) :
    ∀ {b : Build}, b.outside = true → (orderSearch mem ns as a rest b).1.outside = true := by
  induction rest with
  | nil => exact fun h => h
  | cons n rest ih =>
    intro b h
    rw [orderSearch]
    split_ifs
    · rw [Build.mapByOrder, h]
      rfl
    · exact ih (by rw [h]; rfl)

theorem outside_orderLoop {ns as : List Component} (cs : List Component) :
    ∀ {rest : List Component} {b : Build}, b.outside = true →
      (orderLoop mem ns as cs rest b).outside = true := by
  induction cs with
  | nil => exact fun h => h
  | cons a cs ih =>
    intro rest b h
    rw [orderLoop]
    split_ifs with hmapped hcount
    · exact outside_orderSearch rest h
    · exact ih (outside_orderSearch rest h)
    · exact h
    · exact ih h

/-- A search in order that comes to a stream no PID is mapped to reads behind the ad's audio. -/
theorem orderSearch_outside {ns as : List Component} {a n : Component} (rest : List Component) :
    ∀ {b : Build}, n ∈ rest → (∀ x, b.m_pidMap x ≠ n.pid) →
      (orderSearch mem ns as a rest b).1.outside = true := by
  induction rest with
  | nil => exact fun h => absurd h List.not_mem_nil
  | cons c rest ih =>
    intro b hn hfree
    by_cases hl : as.length ≤ as.findIdx fun _ => b.m_pidMap as.length == c.pid
    · -- the component behind the last one is read
      rw [orderSearch]
      split_ifs
      · simp [Build.mapByOrder, hl]
      · exact outside_orderSearch rest (by simp [hl])
    · have hnot : ¬ (as.length ≤ (as.findIdx fun _ => b.m_pidMap as.length == c.pid) ∧
          (as.getD (as.findIdx fun _ => b.m_pidMap as.length == c.pid)
            (mem.adAudio (as.findIdx fun _ => b.m_pidMap as.length == c.pid))).streamType =
            c.streamType) := fun h => hl h.1
      rcases List.mem_cons.mp hn with rfl | hn
      · refine absurd (List.findIdx_eq_length.mpr fun x _ => ?_).ge hl
        exact beq_eq_false_iff_ne.mpr (hfree _)
      · rw [orderSearch, if_neg hnot]
        exact ih hn hfree

/-- **Taking the rest in order.** As long as not all audio of the network is taken, and some of
the ad's is not mapped, a component is read that there is not. -/
theorem orderLoop_outside {ns as : List Component} {n : Component} (hn : n ∈ ns)
    (cs : List Component) : ∀ {b : Build}, (∀ x, b.m_pidMap x ≠ n.pid) →
      b.audioMappedCount < ns.length → (∃ a ∈ cs, b.m_pidMap a.pid = 0) →
      (orderLoop mem ns as cs ns b).outside = true := by
  induction cs with
  | nil => exact fun _ _ ⟨a, ha, _⟩ => absurd ha List.not_mem_nil
  | cons c cs ih =>
    intro b hfree hcount hleft
    obtain ⟨a, ha, hnone⟩ := hleft
    by_cases hc : b.m_pidMap c.pid = 0
    · have hread : (orderSearch mem ns as c ns b).1.outside = true :=
        orderSearch_outside ns hn hfree
      rw [orderLoop, if_pos hc]
      split_ifs
      · exact hread
      · exact outside_orderLoop cs hread
    · rw [orderLoop, if_neg hc, if_neg (not_le.mpr hcount)]
      rcases List.mem_cons.mp ha with rfl | ha
      · exact absurd hnone hc
      · exact ih hfree hcount ⟨a, ha, hnone⟩

end Remaining

/-! ## The whole insertion -/

section Whole

variable {mem : Memory} {net ad : Streams} {b : Build} {m_audioReplicationEnabled : Bool}

theorem outside_searches {ns : List Component} (as : List Component) : ∀ {b : Build},
    b.outside = true → (as.foldl (languageStep ns) b).outside = true := by
  induction as with
  | nil => exact fun h => h
  | cons a as ih =>
    intro b h
    refine ih ?_
    rcases languageStep_cases ns b a with ⟨-, hstep⟩ | ⟨-, n, -, -, -, -, j, hstep⟩ | ⟨-, -, j, hstep⟩
    · rwa [hstep]
    · rw [hstep]
      exact h
    · rw [hstep]
      exact h

theorem outside_remainingAudio {ns as : List Component} (h : b.outside = true) :
    (remainingAudio mem ns as m_audioReplicationEnabled b).outside = true := by
  rw [remainingAudio]
  split_ifs
  · rw [(replicate_foldl as ns b).2.1, h]
  · exact outside_orderLoop as h
  · exact h
  · exact h

/-- An array of pids without repetition gives the components back. -/
theorem Streams.eq_of_pid_eq (s : Streams) {c c' : Component}
    (hc : c ∈ s.m_videoComponents ++ s.m_audioComponents)
    (hc' : c' ∈ s.m_videoComponents ++ s.m_audioComponents) (h : c.pid = c'.pid) : c = c' :=
  List.inj_on_of_nodup_map s.nodup hc hc' h

/-- The video of the ad goes to video. -/
theorem Mapped.video_entry {done : List Component} (h : Mapped net ad done b)
    (hdone : done ⊆ ad.m_audioComponents) {a : Component} (ha : a ∈ ad.m_videoComponents)
    (hne : b.m_pidMap a.pid ≠ 0) : ∃ n ∈ net.m_videoComponents, n.pid = b.m_pidMap a.pid ∧
      sameVideoType a.streamType n.streamType = true := by
  rcases h.entry a.pid hne with ⟨a', ha', n, hn, hpid, hto, hsame⟩ | ⟨a', ha', -, -, hpid, -⟩
  · rw [ad.eq_of_pid_eq (List.mem_append_left _ ha') (List.mem_append_left _ ha) hpid] at hsame
    exact ⟨n, hn, hto, hsame⟩
  · exact absurd hpid.symm (ad.video_ne_audio ha (hdone ha'))

/-- The audio of the ad goes to audio. -/
theorem Mapped.audio_entry {done : List Component} (h : Mapped net ad done b)
    (hdone : done ⊆ ad.m_audioComponents) {a : Component} (ha : a ∈ ad.m_audioComponents)
    (hne : b.m_pidMap a.pid ≠ 0) : ∃ n ∈ net.m_audioComponents, n.pid = b.m_pidMap a.pid ∧
      a.streamType = n.streamType := by
  rcases h.entry a.pid hne with ⟨a', ha', -, -, hpid, -⟩ | ⟨a', ha', n, hn, hpid, hto, hsame, -⟩
  · exact absurd hpid (ad.video_ne_audio ha' ha)
  · rw [ad.eq_of_pid_eq (List.mem_append_right _ (hdone ha')) (List.mem_append_right _ ha) hpid]
      at hsame
    exact ⟨n, hn, hto, hsame⟩

/-- What is mapped after the searches is sound, whatever is replicated onto other streams. -/
theorem Mapped.sound (h : Mapped net ad ad.m_audioComponents b) {b' : Build}
    (hmap : b'.m_pidMap = b.m_pidMap) (hout : b'.outside = false)
    (htargets : ∀ t ∈ b'.m_replicateAudioTargetPids, ∃ c ∈ net.m_audioComponents, c.pid = t ∧
      ∀ a ∈ ad.m_audioComponents, b.m_pidMap a.pid ≠ t) : Sound net ad (true, b') where
  video _ a ha hne := by
    rw [hmap] at hne ⊢
    exact h.video_entry (List.Subset.refl _) ha hne
  audio _ a ha hne := by
    rw [hmap] at hne ⊢
    exact h.audio_entry (List.Subset.refl _) ha hne
  one _ := by
    rw [hmap]
    exact h.one
  replicated _ t ht a ha := by
    obtain ⟨c, hc, rfl, hnot⟩ := htargets t ht
    rw [hmap]
    rcases List.mem_append.mp ha with ha | ha
    · intro hto
      have hpos := net.pid_pos c (List.mem_append_right _ hc)
      obtain ⟨n, hn, hpid, -⟩ := h.video_entry (List.Subset.refl _) ha (by omega)
      exact net.video_ne_audio hn hc (hpid.trans hto)
    · exact hnot a ha
  inside := hout

/-- Some of the ad's audio is left, if the network has less audio. -/
theorem Mapped.exists_not_mapped (h : Mapped net ad ad.m_audioComponents b)
    (hlt : net.m_audioComponents.length < ad.m_audioComponents.length) :
    ∃ a ∈ ad.m_audioComponents, b.m_pidMap a.pid = 0 := by
  by_contra hnone
  have hall : ∀ a ∈ ad.m_audioComponents, b.m_pidMap a.pid ≠ 0 :=
    fun a ha hzero => hnone ⟨a, ha, hzero⟩
  have hnodup : (ad.m_audioComponents.map fun a => b.m_pidMap a.pid).Nodup := by
    refine (List.nodup_map_iff_inj_on (ad.audio_nodup.of_map _)).mpr fun a ha a' ha' heq => ?_
    exact ad.eq_of_pid_eq (List.mem_append_right _ ha) (List.mem_append_right _ ha')
      (h.one a ha a' ha' (hall a ha) heq)
  have hsub : (ad.m_audioComponents.map fun a => b.m_pidMap a.pid) ⊆
      net.m_audioComponents.map Component.pid := by
    intro x hx
    obtain ⟨a, ha, rfl⟩ := List.mem_map.mp hx
    obtain ⟨n, hn, hpid, -⟩ := h.audio_entry (List.Subset.refl _) ha (hall a ha)
    exact List.mem_map.mpr ⟨n, hn, hpid⟩
  have hle := (hnodup.subperm hsub).length_le
  rw [List.length_map, List.length_map] at hle
  omega

/-- Some of the network's audio is left, if not all is counted. -/
theorem Mapped.exists_free {done : List Component} (h : Mapped net ad done b)
    (hlt : b.audioMappedCount < net.m_audioComponents.length) :
    ∃ n ∈ net.m_audioComponents, b.m_pidIsMapped n.pid = false := by
  have hcount := h.count
  obtain ⟨n, hn⟩ := List.exists_mem_of_length_pos (l := net.m_audioComponents.filter fun n =>
    !b.m_pidIsMapped n.pid) (by omega)
  rw [List.mem_filter, Bool.not_eq_true'] at hn
  exact ⟨n, hn⟩

theorem not_lacks_iff (xs ys : List Component) :
    (!(lacks xs ys || lacks ys xs)) = true ↔ (ys = [] ↔ xs = []) := by
  rcases xs with _ | ⟨x, xs⟩ <;> rcases ys with _ | ⟨y, ys⟩ <;> simp [lacks]

theorem admitted_iff : Admitted net ad ↔ compatible net ad = true ∧
    (net.m_havePAT && net.m_havePMT && ad.m_havePAT && ad.m_havePMT) = true := by
  rw [Admitted, ← not_lacks_iff, ← not_lacks_iff, compatible]
  simp only [Bool.not_eq_true', Bool.or_eq_false_iff, Bool.and_eq_true]
  tauto

theorem mapped_start (net ad : Streams) (m_replicateAudioSrcPid : ℤ)
    (m_replicateAudioStreamType : ℕ) :
    Mapped net ad [] (Build.start m_replicateAudioSrcPid m_replicateAudioStreamType) where
  entry _ hx := absurd rfl hx
  one _ ha := absurd ha List.not_mem_nil
  outside := rfl
  targets := rfl
  count := by simp [Build.start]

/-- After the searches the map is sound, if the rest is not taken in order. -/
theorem remainingAudio_sound_iff (mem : Memory) (h : Mapped net ad ad.m_audioComponents b)
    (hcount : b.audioMappedCount = commonTypes net.m_audioComponents ad.m_audioComponents) :
    Sound net ad (true, remainingAudio mem net.m_audioComponents ad.m_audioComponents
        m_audioReplicationEnabled b) ↔
      ¬ ByOrder net.m_audioComponents ad.m_audioComponents m_audioReplicationEnabled := by
  have hplain : Sound net ad (true, b) := h.sound rfl h.outside (by simp [h.targets])
  rw [remainingAudio, ByOrder, ← hcount]
  split_ifs with hleft hrepl horder
  · obtain ⟨hmap, hout, htargets⟩ := replicate_foldl ad.m_audioComponents net.m_audioComponents b
    refine iff_of_true (h.sound hmap (hout.trans h.outside) fun t ht => ?_) fun hby => ?_
    · refine (htargets t ht).resolve_left fun hold => ?_
      rw [h.targets] at hold
      exact absurd hold List.not_mem_nil
    · exact absurd (hby.1.symm.trans hrepl) (by decide)
  · -- a component behind the ad's audio is read
    obtain ⟨n, hn, hfree⟩ := h.exists_free hleft.1
    have hout := @orderLoop_outside mem _ ad.m_audioComponents n hn ad.m_audioComponents _
      (h.apart hn hfree) hleft.1 (h.exists_not_mapped (by omega))
    refine iff_of_false (fun hsound => ?_) fun hnot => hnot ⟨?_, by omega, hleft⟩
    · exact absurd (hout.symm.trans hsound.inside) (by decide)
    · exact Bool.eq_false_of_not_eq_true hrepl
  · exact iff_of_true hplain fun hby => horder (by omega)
  · exact iff_of_true hplain fun hby => hleft hby.2.2

/-- **Which maps are sound.** An insertion that comes to map anything builds a sound map unless the
ad has more video than the network, or audio is taken in order. -/
theorem startInsertion_sound_iff (mem : Memory) (net ad : Streams)
    (m_audioReplicationEnabled : Bool) (m_replicateAudioSrcPid : ℤ)
    (m_replicateAudioStreamType : ℕ) :
    Sound net ad (startInsertion mem net ad m_audioReplicationEnabled m_replicateAudioSrcPid
        m_replicateAudioStreamType) ↔
      ¬ (Admitted net ad ∧ VideoAgrees net.m_videoComponents ad.m_videoComponents ∧
        (net.m_videoComponents.length < ad.m_videoComponents.length ∨
          ByOrder net.m_audioComponents ad.m_audioComponents m_audioReplicationEnabled)) := by
  have hfailed : ∀ b : Build, b.outside = false → Sound net ad (false, b) := fun b hb =>
    ⟨fun h => absurd h Bool.false_ne_true, fun h => absurd h Bool.false_ne_true,
      fun h => absurd h Bool.false_ne_true, fun h => absurd h Bool.false_ne_true, hb⟩
  by_cases hadmitted : Admitted net ad
  · have hboth := admitted_iff.mp hadmitted
    rw [startInsertion]
    simp only [hboth.1, hboth.2, if_true, hadmitted, true_and]
    by_cases hvideo : VideoAgrees net.m_videoComponents ad.m_videoComponents
    · simp only [hvideo, true_and]
      rcases Nat.lt_or_ge net.m_videoComponents.length ad.m_videoComponents.length with hlt | hle
      · -- a component behind the network's video is read
        have hout := @videoPass_of_lt mem ad.m_videoComponents _ 0
          (Build.start m_replicateAudioSrcPid m_replicateAudioStreamType) hvideo hlt
        refine iff_of_false (fun hsound => ?_) fun hnot => hnot (.inl hlt)
        have hinside := hsound.inside
        split_ifs at hinside
        · rw [outside_remainingAudio (outside_searches _ hout)] at hinside
          exact absurd hinside (by decide)
        · rw [hout] at hinside
          exact absurd hinside (by decide)
      · obtain ⟨b, hpass, hmapped, htaken, hzero⟩ := @videoPass_of_le mem net ad
          ad.m_videoComponents _ 0 _ (List.Subset.refl _) (List.Subset.refl _) hvideo hle
          (mapped_start net ad m_replicateAudioSrcPid m_replicateAudioStreamType)
        obtain ⟨hall, hcount⟩ := hmapped.searches ad.m_audioComponents rfl
        rw [hpass, if_pos rfl, remainingAudio_sound_iff mem hall]
        · exact not_congr (or_iff_right (not_lt.mpr hle)).symm
        · rw [hcount, hzero, freeTypes, htaken]
          exact (Nat.zero_add _).trans (by simp [Build.start, commonTypes, languageTypes])
    · have hstop := @videoPass_of_not_agrees mem ad.m_videoComponents _ 0
        (Build.start m_replicateAudioSrcPid m_replicateAudioStreamType) hvideo
      rw [if_neg (by rw [hstop.1]; decide)]
      refine iff_of_true ?_ fun h => hvideo h.1
      have hsound := hfailed _ hstop.2
      rwa [← hstop.1] at hsound
  · refine iff_of_true ?_ fun h => hadmitted h.1
    rw [admitted_iff] at hadmitted
    rw [startInsertion]
    by_cases hcompatible : compatible net ad = true
    · rw [if_pos hcompatible, if_neg fun hready => hadmitted ⟨hcompatible, hready⟩]
      exact hfailed _ rfl
    · rw [if_neg hcompatible]
      exact hfailed _ rfl

/-- A network with AAC audio. -/
def aacNetwork : Streams where
  m_havePAT := true
  m_havePMT := true
  m_videoComponents := [⟨0x1B, 0x100, none⟩]
  m_audioComponents := [⟨0x0F, 0x101, none⟩]
  nodup := by decide
  pid_pos := by decide
  pid_lt := by decide

/-- An ad with AC-3 audio, and AAC audio behind it; no language is given. -/
def twoAudioAd : Streams where
  m_havePAT := true
  m_havePMT := true
  m_videoComponents := [⟨0x1B, 0x200, none⟩]
  m_audioComponents := [⟨0x81, 0x201, none⟩, ⟨0x0F, 0x202, none⟩]
  nodup := by decide
  pid_pos := by decide
  pid_lt := by decide

/-- Memory in which an AAC component follows the ad's. -/
def aacMemory : Memory where
  video _ := ⟨0, 0, none⟩
  audio _ := ⟨0, 0, none⟩
  adAudio _ := ⟨0x0F, 0, none⟩

/-- The component behind the ad's audio is read, and AC-3 goes where AAC should. -/
theorem twoAudioAd_not_sound :
    (startInsertion aacMemory aacNetwork twoAudioAd false (-1) 0).2.outside = true ∧
      (startInsertion aacMemory aacNetwork twoAudioAd false (-1) 0).2.m_pidMap 0x201 = 0x101 ∧
      ¬ Sound aacNetwork twoAudioAd
        (startInsertion aacMemory aacNetwork twoAudioAd false (-1) 0) := by
  have hout : (startInsertion aacMemory aacNetwork twoAudioAd false (-1) 0).2.outside = true := by
    decide
  refine ⟨hout, by decide, fun h => ?_⟩
  exact absurd (hout.symm.trans h.inside) (by decide)

end Whole

end PidMap

end MediaFramework
