import MediaFramework.Rbi.InsertionState

/-!
# Who a definition set is for

A set is built from one opportunity, and its spots are to be played for the
trigger that made it. This is decided by a few fields of a session, its
*custody*: whether the context is pending or inserting, what set it holds, what
set waits at the manager, and for which opportunity.

`Custody.Orderly` is the invariant. The moves of a session keep it, except in three
cases which the marks of a run record (`Mark.InOrder`): a set that is registered
when its trigger is not pending any more, a set that is left at the manager when
its trigger is dropped, and a replacement that fails to start.
-/

namespace MediaFramework

/-- The fields of a session that decide whom a set is for. -/
structure Custody where
  insertPending : Bool
  inserting : Bool
  dfnSet : Option ℕ
  dfnCurrent : Option SpotPointer
  insertSrc : Bool
  insertDefinitions : Option RegisteredSet
  trigger : Option Origin
  heldFor : Option Origin
  isOpen : Bool
  trace : List Mark

/-- The custody of a session. -/
def InsertSession.custody (s : InsertSession) : Custody where
  insertPending := s.insertPending
  inserting := s.inserting
  dfnSet := s.dfnSet
  dfnCurrent := s.dfnCurrent
  insertSrc := s.insertSrc
  insertDefinitions := s.insertDefinitions
  trigger := s.trigger
  heldFor := s.heldFor
  isOpen := s.isOpen
  trace := s.trace

/-- The mark does not record a disorder. With `strict`, a replacement that does not
start, while no other one runs, is one. -/
def Mark.InOrder (strict : Bool) : Mark → Prop
  | .registered built pending => pending = some built
  | .adopted _ _ => True
  | .started _ _ => True
  | .notStarted inserting => strict = true → inserting = true
  | .stopped abandoned => abandoned = false

instance (strict : Bool) (m : Mark) : Decidable (m.InOrder strict) := by
  unfold Mark.InOrder
  split <;> infer_instance

/-- A run without disorder. -/
def InOrder (strict : Bool) (trace : List Mark) : Prop := ∀ m ∈ trace, m.InOrder strict

instance (strict : Bool) (trace : List Mark) : Decidable (InOrder strict trace) := by
  unfold InOrder
  infer_instance

theorem InOrder.tail {strict : Bool} {m : Mark} {trace : List Mark}
    (h : InOrder strict (m :: trace)) : InOrder strict trace :=
  fun m' hm' => h m' (List.mem_cons_of_mem m hm')

theorem InOrder.head {strict : Bool} {m : Mark} {trace : List Mark}
    (h : InOrder strict (m :: trace)) : m.InOrder strict := h m List.mem_cons_self

/-- What the marks say of the sets that were taken and of the spots that were
started. -/
structure Answering (strict : Bool) (trace : List Mark) : Prop where
  adopted : ∀ built pending, Mark.adopted built pending ∈ trace → pending = some built
  started : strict = true → ∀ built trigger, Mark.started built trigger ∈ trace → built = trigger

/-- A mark that neither takes a set nor starts a spot says nothing of either. -/
theorem Answering.cons {strict : Bool} {m : Mark} {trace : List Mark} (h : Answering strict trace)
    (hadopted : ∀ built pending, m = .adopted built pending → pending = some built)
    (hstarted : strict = true → ∀ built trigger, m = .started built trigger → built = trigger) :
    Answering strict (m :: trace) where
  adopted built pending hm := by
    rcases List.mem_cons.mp hm with heq | hm
    · exact hadopted built pending heq.symm
    · exact h.adopted built pending hm
  started hs built trigger hm := by
    rcases List.mem_cons.mp hm with heq | hm
    · exact hstarted hs built trigger heq.symm
    · exact h.started hs built trigger hm

namespace Custody

variable {strict b : Bool} {c : Custody}

/-- At most `k` references to the entry, and at least one. -/
def Referred (k : ℕ) (c : Custody) : Prop :=
  ∀ e, c.insertDefinitions = some e → 1 ≤ e.set.refCount ∧ e.set.refCount ≤ k

/-- **The invariant of custody.** -/
structure Orderly (strict : Bool) (c : Custody) : Prop where
  referred : c.Referred 2
  /-- without a set there is no spot and no source -/
  bare : c.dfnSet = none → c.dfnCurrent = none ∧ c.insertSrc = false
  /-- a set that waits is for the trigger that is pending -/
  waiting : strict = true ∨ c.isOpen = true → c.dfnSet = none → ∀ e, c.insertDefinitions = some e →
    e.set.refCount = 1 ∧ c.insertPending = true ∧ c.trigger = some e.set.origin
  /-- an idle context holds nothing -/
  settled : strict = true → c.insertPending = false → c.inserting = false → c.dfnSet = none
  /-- the set that is held is for the last trigger -/
  heldFor : strict = true → c.dfnSet.isSome → c.heldFor = c.trigger
  answering : Answering strict c.trace

/-- The invariant, of a run without disorder; `b` says whether the session is open. -/
structure Kept (strict b : Bool) (c : Custody) : Prop where
  isOpen : c.isOpen = b
  orderly : InOrder strict c.trace → c.Orderly strict

/-- What is left of the invariant while a set is given back: at most `k` references. -/
structure Ending (strict b : Bool) (k : ℕ) (c : Custody) : Prop where
  isOpen : c.isOpen = b
  referred : InOrder strict c.trace → c.Referred k
  dfnCurrent : InOrder strict c.trace → c.dfnCurrent = none
  insertSrc : InOrder strict c.trace → c.insertSrc = false
  answering : InOrder strict c.trace → Answering strict c.trace

/-! ## The handler -/

/-- The handler puts a set where there is none. -/
theorem Kept.put (h : c.Kept strict b) {e : RegisteredSet} {built : Origin}
    {pending : Option Origin} (he : e.set.refCount = 1) (hbuilt : e.set.origin = built)
    (hpending : pending = some built → c.insertPending = true ∧ c.trigger = some built) :
    Kept strict b { c with
      insertDefinitions := some e, trace := .registered built pending :: c.trace } := by
  subst hbuilt
  refine ⟨h.isOpen, fun hclean => ?_⟩
  have ho := h.orderly hclean.tail
  have hp := hpending hclean.head
  refine ⟨fun e' he' => ?_, ho.bare, fun _ _ e' he' => ?_, ho.settled, ho.heldFor,
    ho.answering.cons (fun _ _ heq => by cases heq) fun _ _ _ heq => by cases heq⟩
  · cases he'
    exact ⟨he.ge, he.le.trans (Nat.le_succ 1)⟩
  · cases he'
    exact ⟨he, hp⟩

theorem Ending.put {k : ℕ} (h : c.Ending strict b (k + 1)) {e : RegisteredSet} {built : Origin}
    {pending : Option Origin} (he : e.set.refCount = 1) :
    Ending strict b (k + 1) { c with
      insertDefinitions := some e, trace := .registered built pending :: c.trace } := by
  refine ⟨h.isOpen, fun _ e' he' => ?_, fun hclean => h.dfnCurrent hclean.tail,
    fun hclean => h.insertSrc hclean.tail, fun hclean => (h.answering hclean.tail).cons
      (fun _ _ heq => by cases heq) fun _ _ _ heq => by cases heq⟩
  cases he'
  exact ⟨he.ge, he.le.trans (Nat.le_add_left 1 k)⟩

/-! ## Dropping a reference -/

/-- The references that are left of an entry. -/
theorem Referred.dropped {k : ℕ} (h : c.Referred (k + 1)) :
    Referred k { c with insertDefinitions := c.insertDefinitions.bind RegisteredSet.dropped } := by
  intro e' he'
  obtain ⟨e, he, hdrop⟩ := Option.bind_eq_some_iff.mp he'
  have hk := (h e he).2
  unfold RegisteredSet.dropped at hdrop
  split_ifs at hdrop with hlast
  cases hdrop
  exact ⟨Nat.pos_of_ne_zero hlast, Nat.sub_le_of_le_add hk⟩

/-- No reference, no entry. -/
theorem Referred.none (h : c.Referred 0) : c.insertDefinitions = none := by
  rcases he : c.insertDefinitions with _ | e
  · rfl
  · have := h e he
    omega

theorem Kept.dropped (h : c.Kept strict b) :
    Kept strict b
      { c with insertDefinitions := c.insertDefinitions.bind RegisteredSet.dropped } := by
  refine ⟨h.isOpen, fun hclean => ?_⟩
  have ho := h.orderly hclean
  have hk := (show c.Referred (1 + 1) from ho.referred).dropped
  refine ⟨fun e he => ⟨(hk e he).1, (hk e he).2.trans (Nat.le_succ 1)⟩, ho.bare,
    fun hopen hset e' he' => ?_, ho.settled, ho.heldFor, ho.answering⟩
  -- the entry that waited had one reference
  obtain ⟨e, he, hdrop⟩ := Option.bind_eq_some_iff.mp he'
  have hone := (ho.waiting hopen hset e he).1
  rw [RegisteredSet.dropped, hone, if_pos rfl] at hdrop
  cases hdrop

theorem Ending.dropped {k : ℕ} (h : c.Ending strict b (k + 1)) :
    Ending strict b k
      { c with insertDefinitions := c.insertDefinitions.bind RegisteredSet.dropped } :=
  ⟨h.isOpen, fun hclean => (h.referred hclean).dropped, h.dfnCurrent, h.insertSrc, h.answering⟩

/-- With the last reference dropped, the set has been given back. -/
theorem Ending.kept (h : c.Ending strict b 0) (hset : c.dfnSet = none) : c.Kept strict b := by
  refine ⟨h.isOpen, fun hclean => ?_⟩
  have hnone : c.insertDefinitions = Option.none := (h.referred hclean).none
  refine ⟨fun e he => ?_, fun _ => ⟨h.dfnCurrent hclean, h.insertSrc hclean⟩,
    fun _ _ e he => ?_, fun _ _ _ => hset, fun _ hsome => ?_, h.answering hclean⟩
  · rw [hnone] at he
    cases he
  · rw [hnone] at he
    cases he
  · rw [hset] at hsome
    cases hsome

/-! ## The context -/

/-- The session is taken from the manager's map. -/
theorem Kept.close (h : c.Kept strict b) : Kept strict false { c with isOpen := false } := by
  refine ⟨rfl, fun hclean => ?_⟩
  have ho := h.orderly hclean
  refine ⟨ho.referred, ho.bare, fun hopen => ho.waiting ?_, ho.settled, ho.heldFor, ho.answering⟩
  exact hopen.imp_right fun hfalse => nomatch hfalse

/-- A trigger is registered by an idle context: no set waits, none is held. -/
theorem Kept.trigger (h : c.Kept strict b) (hpend : c.insertPending = false)
    (hins : c.inserting = false) (origin : Origin) :
    Kept strict b { c with insertPending := true, trigger := some origin } := by
  refine ⟨h.isOpen, fun hclean => ?_⟩
  have ho := h.orderly hclean
  refine ⟨ho.referred, ho.bare, fun hopen hset e he => ?_, fun _ hp => (nomatch hp),
    fun hs hset => ?_, ho.answering⟩
  · have := (ho.waiting hopen hset e he).2.1
    rw [hpend] at this
    cases this
  · rw [ho.settled hs hpend hins] at hset
    cases hset

/-- The set that waits is taken by the pending context. -/
theorem Kept.take (h : c.Kept strict b) (hopen : strict = true ∨ b = true)
    (hpend : c.insertPending = true) (hset : c.dfnSet = none) {e : RegisteredSet}
    (he : c.insertDefinitions = some e) {pending : Option Origin} (hp : pending = c.trigger) :
    Kept strict b { c with
      insertDefinitions :=
        some { e with set := { e.set with refCount := e.set.refCount + 1 } }
      dfnSet := some e.node
      heldFor := some e.set.origin
      trace := .adopted e.set.origin pending :: c.trace } := by
  subst hp
  refine ⟨h.isOpen, fun hclean => ?_⟩
  have ho := h.orderly hclean.tail
  obtain ⟨hone, _, htrigger⟩ := ho.waiting (h.isOpen ▸ hopen) hset e he
  refine ⟨fun e' he' => ?_, fun hnone => (nomatch hnone), fun _ hnone => (nomatch hnone),
    fun _ hp => ?_, fun _ _ => htrigger.symm, ho.answering.cons (fun built pending heq => ?_)
    fun _ _ _ heq => (nomatch heq)⟩
  · cases he'
    exact ⟨Nat.succ_pos _, (congrArg (· + 1) hone).le⟩
  · rw [show c.insertPending = false from hp] at hpend
    cases hpend
  · cases heq
    exact htrigger

/-- The pointer to the spot moves inside the set that is held. -/
theorem Kept.setCurrent (h : c.Kept strict b) (hset : c.dfnSet.isSome)
    (q : Option SpotPointer) : Kept strict b { c with dfnCurrent := q } := by
  refine ⟨h.isOpen, fun hclean => ?_⟩
  have ho := h.orderly hclean
  refine ⟨ho.referred, fun hnone => ?_, ho.waiting, ho.settled, ho.heldFor, ho.answering⟩
  rw [show c.dfnSet = none from hnone] at hset
  cases hset

/-- A spot of the set that is held gets a source, or loses it. -/
theorem Kept.setSrc (h : c.Kept strict b) (hcur : c.dfnCurrent ≠ none) (src : Bool) :
    Kept strict b { c with insertSrc := src } := by
  refine ⟨h.isOpen, fun hclean => ?_⟩
  have ho := h.orderly hclean
  refine ⟨ho.referred, fun hnone => ?_, ho.waiting, ho.settled, ho.heldFor, ho.answering⟩
  exact absurd (ho.bare hnone).1 hcur

/-- A spot with a source has a set. -/
theorem Orderly.set_of_src (h : c.Orderly strict) (hsrc : c.insertSrc = true) :
    c.dfnSet ≠ none := by
  intro hnone
  have := (h.bare hnone).2
  rw [hsrc] at this
  cases this

/-- With a source in hand, the context may as well be pending. -/
theorem Kept.pend (h : c.Kept strict b) (hsrc : c.insertSrc = true) :
    Kept strict b { c with insertPending := true } := by
  refine ⟨h.isOpen, fun hclean => ?_⟩
  have ho := h.orderly hclean
  exact ⟨ho.referred, ho.bare, fun _ hnone => absurd hnone (ho.set_of_src hsrc),
    fun _ hp => (nomatch hp), ho.heldFor, ho.answering⟩

/-- A spot with a source, or a fixed one, is started. -/
theorem Kept.start (h : c.Kept strict b) (hspot : c.insertSrc = true ∨ c.dfnCurrent ≠ none)
    (pending : Bool) :
    Kept strict b { c with
      insertPending := pending, inserting := true
      trace := .started c.heldFor c.trigger :: c.trace } := by
  refine ⟨h.isOpen, fun hclean => ?_⟩
  have ho := h.orderly hclean.tail
  have hset : c.dfnSet ≠ none := by
    rcases hspot with hsrc | hcur
    · exact ho.set_of_src hsrc
    · exact fun hnone => hcur (ho.bare hnone).1
  refine ⟨ho.referred, ho.bare, fun _ hnone => absurd hnone hset, fun _ _ hf => (nomatch hf),
    ho.heldFor, ho.answering.cons (fun _ _ heq => (nomatch heq)) fun hs built trigger heq => ?_⟩
  cases heq
  exact ho.heldFor hs (Option.isSome_iff_ne_none.mpr hset)

/-- A replacement fails to start. -/
theorem Kept.notStarted (h : c.Kept strict b) (hsrc : c.insertSrc = true) (pending : Bool) :
    Kept strict b { c with
      insertPending := pending, insertSrc := false
      trace := .notStarted c.inserting :: c.trace } := by
  refine ⟨h.isOpen, fun hclean => ?_⟩
  have ho := h.orderly hclean.tail
  have hset := ho.set_of_src hsrc
  refine ⟨ho.referred, fun hnone => absurd hnone hset, fun _ hnone => absurd hnone hset,
    fun hs _ hins => ?_, ho.heldFor,
    ho.answering.cons (fun _ _ heq => (nomatch heq)) fun _ _ _ heq => (nomatch heq)⟩
  have := hclean.head hs
  rw [show c.inserting = false from hins] at this
  cases this

/-! ## Ending a spot -/

/-- A context without a set stops: nothing may wait for it. -/
theorem Kept.stop (h : c.Kept strict b) (hset : c.dfnSet = none) {abandoned : Bool}
    (habandoned : abandoned = false → c.insertPending = true → c.insertDefinitions = none) :
    Kept strict b { c with
      insertSrc := false, inserting := false, insertPending := false
      trace := .stopped abandoned :: c.trace } := by
  refine ⟨h.isOpen, fun hclean => ?_⟩
  have ho := h.orderly hclean.tail
  refine ⟨ho.referred, fun _ => ⟨(ho.bare hset).1, rfl⟩, fun hopen _ e he => ?_,
    fun _ _ _ => hset, ho.heldFor,
    ho.answering.cons (fun _ _ heq => (nomatch heq)) fun _ _ _ heq => (nomatch heq)⟩
  have hnone := habandoned hclean.head (ho.waiting hopen hset e he).2.1
  rw [show c.insertDefinitions = some e from he] at hnone
  cases hnone

/-- A context with a set stops, and is pending for the next spot. -/
theorem Kept.next (h : c.Kept strict b) (hset : c.dfnSet.isSome) (abandoned : Bool) :
    Kept strict b { c with
      insertSrc := false, inserting := false, insertPending := true, dfnCurrent := none
      trace := .stopped abandoned :: c.trace } := by
  refine ⟨h.isOpen, fun hclean => ?_⟩
  have ho := h.orderly hclean.tail
  have hne : c.dfnSet ≠ none := Option.isSome_iff_ne_none.mp hset
  exact ⟨ho.referred, fun hnone => absurd hnone hne, fun _ hnone => absurd hnone hne,
    fun _ hp => (nomatch hp), ho.heldFor,
    ho.answering.cons (fun _ _ heq => (nomatch heq)) fun _ _ _ heq => (nomatch heq)⟩

/-- A context with a set stops, and begins to give it back. -/
theorem Kept.last (h : c.Kept strict b) (abandoned : Bool) :
    Ending strict b 2 { c with
      insertSrc := false, inserting := false, insertPending := false, dfnCurrent := none
      trace := .stopped abandoned :: c.trace } := by
  refine ⟨h.isOpen, fun hclean => (h.orderly hclean.tail).referred, fun _ => rfl, fun _ => rfl,
    fun hclean => ?_⟩
  exact (h.orderly hclean.tail).answering.cons (fun _ _ heq => (nomatch heq))
    fun _ _ _ heq => (nomatch heq)

/-- A trigger that got no answer in time is given up. -/
theorem Kept.giveUp (h : c.Kept strict b) (hopen : strict = true ∨ b = true)
    (hset : c.dfnSet = none) : Ending strict b 1 { c with insertPending := false } := by
  refine ⟨h.isOpen, fun hclean e he => ?_, fun hclean => ((h.orderly hclean).bare hset).1,
    fun hclean => ((h.orderly hclean).bare hset).2, fun hclean => (h.orderly hclean).answering⟩
  have hone := ((h.orderly hclean).waiting (h.isOpen ▸ hopen) hset e he).1
  exact ⟨hone.ge, hone.le⟩

/-- A closed session that has stopped lets go of everything. -/
theorem Kept.letGo (h : c.Kept strict false) (hpend : c.insertPending = false)
    (hins : c.inserting = false) :
    Kept strict false { c with insertSrc := false, dfnCurrent := none, dfnSet := none } := by
  refine ⟨h.isOpen, fun hclean => ?_⟩
  have ho := h.orderly hclean
  refine ⟨ho.referred, fun _ => ⟨rfl, rfl⟩, fun hopen _ e he => ?_, fun _ _ _ => rfl,
    fun _ hset => (nomatch hset), ho.answering⟩
  have hstrict : strict = true := by
    rcases hopen with hs | ho
    · exact hs
    · cases h.isOpen.symm.trans ho
  have := (ho.waiting (.inl hstrict) (ho.settled hstrict hpend hins) e he).2.1
  rw [hpend] at this
  cases this

end Custody

end MediaFramework
