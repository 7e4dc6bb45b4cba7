import MediaFramework.Lib.Run
import Mathlib.Data.List.Basic

/-!
# The session table of the application manager

Sessions between the card and the host's resources have numbers. `AM_OPEN_SS_RSP` takes a number from
`find_available_session`, which marks it as being requested, and then `AM_SS_OPENED` puts the resource
under it; the card closes sessions by their numbers, and when it is ejected all of them are closed.

Each of these holds the mutex of the table while it runs, and they can come in any order. What is
kept beside the table are the openings: who was handed which number, for which resource, and what
has become of it.
-/

namespace MediaFramework

open Function (update update_of_ne update_self)

/-- `NB_MAX_SESSION` -/
def nbMaxSession : ℕ := 256

/-- `FIRST_SESSION_NUMBER` -/
def firstSessionNumber : ℕ := 1

/-- `INVALID_SESSION_NUMBER` -/
def invalidSessionNumber : ℕ := 0

/-! ## The table -/

/-- An entry of `asSessionStatus`. -/
structure SessionEntry where
  bfInUse : Bool
  bfInRequest : Bool
  ulRID : ℕ
  deriving DecidableEq

/-- `asSessionStatus`; only the first 256 indices are the array's. -/
abbrev SessionTable := ℕ → SessionEntry

namespace SessionTable

/-- `init_session_entry` -/
def init : SessionTable := fun _ => ⟨false, false, 0⟩

/-- The number is neither in use nor requested. -/
def available (t : SessionTable) (n : ℕ) : Bool := !(t n).bfInUse && !(t n).bfInRequest

/-- `find_available_session`: the first available number, or the invalid one. -/
def findAvailableSession (t : SessionTable) : ℕ × SessionTable :=
  match (List.range' firstSessionNumber (nbMaxSession - firstSessionNumber)).find? t.available with
  | some n => (n, update t n { t n with bfInRequest := true })
  | none => (invalidSessionNumber, t)

/-- `add_session_entry` would succeed. -/
def canAdd (t : SessionTable) (n : ℕ) : Bool := decide (n < nbMaxSession - 1) && !(t n).bfInUse

/-- `add_session_entry` -/
def addSessionEntry (t : SessionTable) (n rid : ℕ) : Bool × SessionTable :=
  if t.canAdd n then (true, update t n ⟨true, false, rid⟩) else (false, t)

/-- `delete_session_entry`: no bound is looked at; behind the array lies other memory. -/
def deleteSessionEntry (t : SessionTable) (n : ℕ) : Option SessionTable :=
  if n < nbMaxSession then some (update t n ⟨false, false, 0⟩) else none

/-- `AM_POD_EJECTED`: the sessions in use are closed. -/
def podEjected (t : SessionTable) : SessionTable := fun n =>
  if firstSessionNumber ≤ n ∧ n < nbMaxSession ∧ (t n).bfInUse = true then ⟨false, false, 0⟩ else t n

/-- `ParseAPDU`: the resource an APDU goes to. -/
def parseAPDU (t : SessionTable) (n : ℕ) : Option ℕ :=
  if nbMaxSession ≤ n then none
  else if n = invalidSessionNumber then none
  else if (t n).bfInUse = false then none
  else some (t n).ulRID

end SessionTable

/-! ## Openings -/

/-- What has become of a number that was handed out. -/
inductive OpeningStatus where
  /-- `AM_SS_OPENED` is still to come -/
  | handed
  | opened
  | failed
  | closed
  deriving DecidableEq

/-- Somebody was handed a number, for a resource. -/
structure Opening where
  number : ℕ
  rid : ℕ
  status : OpeningStatus
  deriving DecidableEq

/-- Its number is taken. -/
def Opening.Live (o : Opening) : Prop := o.status = .handed ∨ o.status = .opened

/-- The table and the openings. -/
structure AppMgr where
  table : SessionTable
  openings : List Opening

/-- What can happen next. -/
inductive SessionEvent where
  /-- `find_available_session`, for a resource -/
  | find (rid : ℕ)
  /-- `AM_SS_OPENED` for an opening; `known` says that `RM_Get_Queue` finds the resource -/
  | opened (opening : ℕ) (known : Bool)
  /-- the opening is given up, and `AM_SS_OPENED` does not come -/
  | lost (opening : ℕ)
  /-- `AM_SS_CLOSED`, with a number of the card's -/
  | closed (number : ℕ)
  /-- `AM_POD_EJECTED` -/
  | ejected
  /-- `AM_APDU_FROM_POD` -/
  | apdu (number : ℕ)
  deriving DecidableEq

namespace AppMgr

/-- After `session_Init`. -/
def start : AppMgr := ⟨SessionTable.init, []⟩

/-- A session is closed. -/
def close (p : ℕ → Bool) (o : Opening) : Opening :=
  if o.status = .opened ∧ p o.number = true then { o with status := .closed } else o

/-- `AM_SS_OPENED` -/
def amSsOpened (m : AppMgr) (i : ℕ) (o : Opening) (known : Bool) : AppMgr :=
  if known then
    let (added, table) := m.table.addSessionEntry o.number o.rid
    ⟨table, m.openings.set i { o with status := if added then .opened else .failed }⟩
  else { m with openings := m.openings.set i { o with status := .failed } }

/-- One event. A number outside the table is not defined. -/
def step (m : AppMgr) : SessionEvent → Option AppMgr
  | .find rid =>
    let (n, table) := m.table.findAvailableSession
    some ⟨table, m.openings ++ [⟨n, rid, .handed⟩]⟩
  | .opened i known => m.openings[i]?.bind fun o =>
    if o.status = .handed then some (m.amSsOpened i o known) else none
  | .lost i => m.openings[i]?.bind fun o =>
    if o.status = .handed then
      some { m with openings := m.openings.set i { o with status := .failed } }
    else none
  | .closed n => (m.table.deleteSessionEntry n).map fun table =>
    ⟨table, m.openings.map (close (· == n))⟩
  | .ejected => some ⟨m.table.podEjected, m.openings.map (close fun n =>
      decide (firstSessionNumber ≤ n ∧ n < nbMaxSession))⟩
  | .apdu _ => some m

/-! ## What is expected -/

/-- **Kept.** A number that is handed out is not available, and can be opened; and a session that was
opened is in use, with the resource it was opened with. -/
def Kept (m : AppMgr) : Prop :=
  ∀ o ∈ m.openings,
    (o.status = .handed → m.table.available o.number = false ∧ m.table.canAdd o.number = true) ∧
    (o.status = .opened → o.number < nbMaxSession ∧ (m.table o.number).bfInUse = true ∧
      (m.table o.number).ulRID = o.rid)

/-- The number of an opening that failed is available afterwards. -/
def Released (m : AppMgr) (i : ℕ) : Prop :=
  ∀ o ∈ m.openings[i]?, o.status = .failed → m.table.available o.number = true

/-- **Answers.** An opening succeeds, or its number becomes available; after an ejection the numbers
that were requested are available; and an APDU goes to the resource the session was opened with, and
nowhere else. -/
def Answers (m : AppMgr) (e : SessionEvent) : Prop :=
  match e with
  | .opened i _ => ∀ m' ∈ m.step e, m'.Released i
  | .lost i => ∀ m' ∈ m.step e, m'.Released i
  | .ejected => ∀ m' ∈ m.step e, ∀ o ∈ m.openings, o.status = .handed →
      m'.table.available o.number = true
  | .apdu n => ∀ rid, m.table.parseAPDU n = some rid ↔
      n ≠ invalidSessionNumber ∧ ∃ o ∈ m.openings, o.status = .opened ∧ o.number = n ∧ o.rid = rid
  | _ => True

/-- What a step must be like: one of the numbers up to 254 is available when one is looked for; the
resource of an opening is known, and no opening is given up; the card closes no session outside the
table and none that is just being opened, and is not ejected while one is. -/
def Orderly (m : AppMgr) : SessionEvent → Prop
  | .find _ => ∃ n, n < nbMaxSession - 1 ∧ firstSessionNumber ≤ n ∧ m.table.available n = true
  | .opened i known => ∃ o ∈ m.openings[i]?, o.status = .handed ∧ known = true
  | .lost _ => False
  | .closed n => n < nbMaxSession ∧ ∀ o ∈ m.openings, o.status = .handed → o.number ≠ n
  | .ejected => ∀ o ∈ m.openings, o.status ≠ .handed
  | .apdu _ => True

instance (m : AppMgr) : ∀ e, Decidable (m.Orderly e)
  | .find _ => inferInstanceAs (Decidable (∃ n, n < nbMaxSession - 1 ∧ _ ∧ _))
  | .opened i _ => inferInstanceAs (Decidable (∃ o ∈ m.openings[i]?, _ ∧ _))
  | .lost _ => inferInstanceAs (Decidable False)
  | .closed _ => inferInstanceAs (Decidable (_ ∧ ∀ o ∈ m.openings, _ → _))
  | .ejected => inferInstanceAs (Decidable (∀ o ∈ m.openings, _))
  | .apdu _ => inferInstanceAs (Decidable True)

/-! ## The table under its operations -/

variable {m m' : AppMgr} {o : Opening} {i n : ℕ}

variable {t : SessionTable}

theorem available_iff :
    t.available n = true ↔ (t n).bfInUse = false ∧ (t n).bfInRequest = false := by
  rw [SessionTable.available, Bool.and_eq_true, Bool.not_eq_true', Bool.not_eq_true']

theorem canAdd_iff :
    t.canAdd n = true ↔ n < nbMaxSession - 1 ∧ (t n).bfInUse = false := by
  rw [SessionTable.canAdd, Bool.and_eq_true, decide_eq_true_iff, Bool.not_eq_true']

/-- Both look at the one entry only. -/
theorem available_congr {t u : SessionTable} (h : t n = u n) : t.available n = u.available n := by
  rw [SessionTable.available, SessionTable.available, h]

theorem canAdd_congr {t u : SessionTable} (h : t n = u n) : t.canAdd n = u.canAdd n := by
  rw [SessionTable.canAdd, SessionTable.canAdd, h]

theorem available_of_cleared (h : t n = ⟨false, false, 0⟩) :
    t.available n = true := by
  rw [SessionTable.available, h]
  rfl

/-- **The number that is found.** If one of the numbers up to 254 is available, so is the one that is
found, and it is not above. -/
theorem findAvailableSession_eq
    (h : ∃ n, n < nbMaxSession - 1 ∧ firstSessionNumber ≤ n ∧ t.available n = true) :
    ∃ n, n < nbMaxSession - 1 ∧ t.available n = true ∧
      t.findAvailableSession = (n, update t n { t n with bfInRequest := true }) := by
  obtain ⟨k, hk, hfirst, hfree⟩ := h
  rw [SessionTable.findAvailableSession]
  rcases hfind : (List.range' firstSessionNumber (nbMaxSession - firstSessionNumber)).find?
      t.available with _ | n
  · have hnone := List.find?_eq_none.mp hfind k (List.mem_range'_1.mpr ⟨hfirst, by
      rw [nbMaxSession] at hk ⊢
      rw [firstSessionNumber]
      omega⟩)
    exact absurd hfree hnone
  · obtain ⟨hn, -, hleast⟩ := List.find?_range'_eq_some.mp hfind
    refine ⟨n, ?_, hn, rfl⟩
    -- it is the first one
    refine Nat.lt_of_le_of_lt (Nat.le_of_not_lt fun hlt => ?_) hk
    have := hleast k hfirst hlt
    rw [hfree] at this
    cases this

/-- Otherwise it is 255, if that is available. -/
theorem findAvailableSession_last (hlast : t.available (nbMaxSession - 1) = true)
    (h : ¬ ∃ n, n < nbMaxSession - 1 ∧ firstSessionNumber ≤ n ∧ t.available n = true) :
    t.findAvailableSession.1 = nbMaxSession - 1 := by
  have hfind : (List.range' firstSessionNumber (nbMaxSession - firstSessionNumber)).find?
      t.available = some (nbMaxSession - 1) := by
    refine List.find?_range'_eq_some.mpr ⟨hlast, List.mem_range'_1.mpr ⟨by decide, by decide⟩,
      fun j hj hlt => ?_⟩
    refine (Bool.not_eq_true' _).mpr (Bool.eq_false_iff.mpr fun hfree => ?_)
    exact h ⟨j, hlt, hj, hfree⟩
  rw [SessionTable.findAvailableSession, hfind]

/-! ## The invariant -/

/-- No number is taken twice. -/
def Distinct (openings : List Opening) : Prop :=
  ∀ (i j : ℕ) (o o' : Opening), openings[i]? = some o → openings[j]? = some o' →
    o.Live → o'.Live → o.number = o'.number → i = j

/-- What is true beside what is kept. -/
structure Sane (m : AppMgr) : Prop where
  /-- 255 was never handed out -/
  last : m.table.available (nbMaxSession - 1) = true
  /-- what is in use was opened -/
  owner : ∀ n, (m.table n).bfInUse = true → ∃ o ∈ m.openings, o.status = .opened ∧ o.number = n
  distinct : Distinct m.openings

theorem kept_start : start.Kept := by
  intro o ho
  cases ho

theorem sane_start : start.Sane where
  last := rfl
  owner := by
    intro n h
    cases h
  distinct := by
    intro i j o o' hi
    cases hi

/-- A number that is taken is not available. -/
theorem Kept.not_available (h : m.Kept) (ho : o ∈ m.openings) (hlive : o.Live) :
    m.table.available o.number = false := by
  rcases hlive with hhanded | hopened
  · exact ((h o ho).1 hhanded).1
  · rw [SessionTable.available, ((h o ho).2 hopened).2.1]
    rfl

theorem Kept.ne_of_available (h : m.Kept) (hn : m.table.available n = true) (ho : o ∈ m.openings)
    (hlive : o.Live) : o.number ≠ n := by
  rintro rfl
  rw [h.not_available ho hlive] at hn
  cases hn

/-- Openings that come to an end leave the others' numbers apart. -/
theorem Distinct.of_moved {l l' : List Opening} (h : Distinct l)
    (hmoved : ∀ (i : ℕ) (o' : Opening), l'[i]? = some o' → o'.Live →
      ∃ o, l[i]? = some o ∧ o.Live ∧ o.number = o'.number) : Distinct l' := by
  intro i j a b ha hb hlivea hliveb hnumber
  obtain ⟨a₀, ha₀, hlivea₀, hnumbera⟩ := hmoved i a ha hlivea
  obtain ⟨b₀, hb₀, hliveb₀, hnumberb⟩ := hmoved j b hb hliveb
  exact h i j a₀ b₀ ha₀ hb₀ hlivea₀ hliveb₀ (by rw [hnumbera, hnumberb, hnumber])

/-- One more opening, with a number that is not taken. -/
theorem Distinct.append {l : List Opening} (h : Distinct l) (hnew : ∀ a ∈ l, a.Live →
    a.number ≠ o.number) : Distinct (l ++ [o]) := by
  -- an index in the longer list is one in the shorter, or the last
  have hcases : ∀ (i : ℕ) (a : Opening), (l ++ [o])[i]? = some a →
      l[i]? = some a ∨ i = l.length ∧ a = o := by
    intro i a hi
    rcases Nat.lt_or_ge i l.length with hlt | hge
    · rw [List.getElem?_append_left hlt] at hi
      exact Or.inl hi
    · rw [List.getElem?_append_right hge, List.getElem?_singleton] at hi
      split_ifs at hi with h₀
      exact Or.inr ⟨by omega, (Option.some.inj hi).symm⟩
  intro i j a b ha hb hlivea hliveb hnumber
  rcases hcases i a ha with holda | ⟨rfl, rfl⟩
  · rcases hcases j b hb with holdb | ⟨rfl, rfl⟩
    · exact h i j a b holda holdb hlivea hliveb hnumber
    · exact absurd hnumber (hnew a (List.mem_of_getElem? holda) hlivea)
  · rcases hcases j b hb with holdb | ⟨rfl, rfl⟩
    · exact absurd hnumber.symm (hnew b (List.mem_of_getElem? holdb) hliveb)
    · rfl

/-! ## A number is looked for -/

/-- An entry whose number is not the one that was found. -/
theorem available_update {e : SessionEntry} {k : ℕ} (h : k ≠ n) :
    SessionTable.available (update t n e) k = t.available k :=
  available_congr (update_of_ne h ..)

theorem canAdd_update {e : SessionEntry} {k : ℕ} (h : k ≠ n) :
    SessionTable.canAdd (update t n e) k = t.canAdd k :=
  canAdd_congr (update_of_ne h ..)

theorem step_find {rid : ℕ} : m.step (.find rid) =
    some ⟨m.table.findAvailableSession.2,
      m.openings ++ [⟨m.table.findAvailableSession.1, rid, .handed⟩]⟩ := rfl

theorem find_keeps {rid : ℕ} (hK : m.Kept) (hS : m.Sane) (h : m.Orderly (.find rid)) :
    ∃ m', m.step (.find rid) = some m' ∧ m'.Kept ∧ m'.Sane := by
  obtain ⟨n, hn, hfree, hfind⟩ := findAvailableSession_eq h
  have huse := (available_iff.mp hfree).1
  refine ⟨_, by rw [step_find, hfind], ?_⟩
  refine ⟨fun o ho => ?_, ⟨?_, fun k hk => ?_, ?_⟩⟩
  · rcases List.mem_append.mp ho with hold | hnew
    · refine ⟨fun hhanded => ?_, fun hopened => ?_⟩
      · have hne := hK.ne_of_available hfree hold (Or.inl hhanded)
        rw [available_update hne, canAdd_update hne]
        exact (hK o hold).1 hhanded
      · dsimp only
        rw [update_of_ne (hK.ne_of_available hfree hold (Or.inr hopened))]
        exact (hK o hold).2 hopened
    · -- the new one is requested, and not in use
      obtain rfl := List.mem_singleton.mp hnew
      refine ⟨fun _ => ⟨?_, canAdd_iff.mpr ⟨hn, ?_⟩⟩, fun hopened => ?_⟩
      · dsimp only
        rw [SessionTable.available, update_self, huse]
        rfl
      · dsimp only
        rw [update_self]
        exact huse
      · cases hopened
  · rw [available_update (Nat.ne_of_gt hn)]
    exact hS.last
  · have hbefore : (m.table k).bfInUse = true := by
      dsimp only at hk
      rcases eq_or_ne k n with rfl | hne
      · rw [update_self] at hk
        exact hk
      · rw [update_of_ne hne] at hk
        exact hk
    obtain ⟨o, ho, hopened⟩ := hS.owner k hbefore
    exact ⟨o, List.mem_append_left _ ho, hopened⟩
  · exact hS.distinct.append fun a ha hlive => hK.ne_of_available hfree ha hlive

theorem find_needs {rid : ℕ} (hS : m.Sane) (hstep : m.step (.find rid) = some m')
    (hK' : m'.Kept) : m.Orderly (.find rid) := by
  by_contra hfull
  have hlast := findAvailableSession_last hS.last hfull
  cases hstep
  -- 255 cannot be opened
  have hadd := ((hK' _ (List.mem_append_right _ (List.mem_singleton_self _))).1 rfl).2
  have hlt : m.table.findAvailableSession.1 < nbMaxSession - 1 := (canAdd_iff.mp hadd).1
  rw [hlast] at hlt
  exact Nat.lt_irrefl _ hlt

/-! ## An opening succeeds or fails -/

/-- A place of a list of which one entry was replaced. -/
theorem getElem?_set_cases {l : List Opening} {a b : Opening} {j : ℕ}
    (h : (l.set i a)[j]? = some b) : j = i ∧ b = a ∨ j ≠ i ∧ l[j]? = some b := by
  rcases eq_or_ne j i with rfl | hne
  · rw [List.getElem?_set_self'] at h
    obtain ⟨_, -, hb⟩ := Option.map_eq_some_iff.mp h
    exact Or.inl ⟨rfl, hb.symm⟩
  · rw [List.getElem?_set_ne hne.symm] at h
    exact Or.inr ⟨hne, h⟩

theorem opened_keeps {known : Bool} (hK : m.Kept) (hS : m.Sane)
    (h : m.Orderly (.opened i known)) :
    ∃ m', m.step (.opened i known) = some m' ∧ (m'.Kept ∧ m'.Sane) ∧ m'.Released i := by
  obtain ⟨o, ho, hhanded, rfl⟩ := h
  have hmem := List.mem_of_getElem? ho
  have hadd := ((hK o hmem).1 hhanded).2
  obtain ⟨hlt, -⟩ := canAdd_iff.mp hadd
  have hstep : m.step (.opened i true) =
      some ⟨update m.table o.number ⟨true, false, o.rid⟩,
        m.openings.set i { o with status := .opened }⟩ := by
    rw [step, Option.mem_def.mp ho, Option.bind_some, if_pos hhanded, amSsOpened,
      SessionTable.addSessionEntry, if_pos hadd]
    rfl
  have hset : (m.openings.set i { o with status := .opened })[i]? =
      some { o with status := .opened } := by
    rw [List.getElem?_set_self', Option.mem_def.mp ho]
    rfl
  refine ⟨_, hstep, ⟨fun a ha => ?_, ⟨?_, fun k hk => ?_, ?_⟩⟩, fun a ha hfailed => ?_⟩
  · obtain ⟨j, hj⟩ := List.mem_iff_getElem?.mp ha
    rcases getElem?_set_cases hj with ⟨-, rfl⟩ | ⟨hne, hj⟩
    · refine ⟨fun hhanded' => ?_, fun _ => ⟨Nat.lt_of_lt_of_le hlt (Nat.sub_le _ _), ?_⟩⟩
      · cases hhanded'
      · dsimp only
        rw [update_self]
        exact ⟨rfl, rfl⟩
    · -- another opening has another number
      have hother : a.Live → a.number ≠ o.number := fun hlive hnumber =>
        hne (hS.distinct j i a o hj ho hlive (Or.inl hhanded) hnumber)
      have hkept := hK a (List.mem_of_getElem? hj)
      refine ⟨fun hhanded' => ?_, fun hopened => ?_⟩
      · rw [available_update (hother (Or.inl hhanded')), canAdd_update (hother (Or.inl hhanded'))]
        exact hkept.1 hhanded'
      · dsimp only
        rw [update_of_ne (hother (Or.inr hopened))]
        exact hkept.2 hopened
  · rw [available_update (Nat.ne_of_gt hlt)]
    exact hS.last
  · dsimp only at hk
    rcases eq_or_ne k o.number with rfl | hne
    · exact ⟨_, List.mem_of_getElem? hset, rfl, rfl⟩
    · rw [update_of_ne hne] at hk
      obtain ⟨a, ha, hopened, hnumber⟩ := hS.owner k hk
      obtain ⟨j, hj⟩ := List.mem_iff_getElem?.mp ha
      refine ⟨a, List.mem_of_getElem? (i := j) ?_, hopened, hnumber⟩
      rw [List.getElem?_set_ne, hj]
      rintro rfl
      exact hne (by rw [← hnumber, Option.some.inj (hj.symm.trans ho)])
  · refine hS.distinct.of_moved fun j a hj hlive => ?_
    rcases getElem?_set_cases hj with ⟨rfl, rfl⟩ | ⟨-, hj⟩
    · exact ⟨o, ho, Or.inl hhanded, rfl⟩
    · exact ⟨a, hj, hlive, rfl⟩
  · rw [Option.mem_def.mp hset] at ha
    cases ha
    cases hfailed

/-- A handed number stays requested when its opening fails. -/
theorem not_released (hK : m.Kept) (ho : m.openings[i]? = some o) (hhanded : o.status = .handed) :
    ¬ Released { m with openings := m.openings.set i { o with status := .failed } } i := by
  intro hreleased
  have hfree := hreleased { o with status := .failed } (by
    rw [List.getElem?_set_self', ho]
    rfl) rfl
  have hnot := hK.not_available (List.mem_of_getElem? ho) (Or.inl hhanded)
  exact Bool.noConfusion (hnot.symm.trans hfree)

theorem opened_needs {known : Bool} (hK : m.Kept) (hstep : m.step (.opened i known) = some m')
    (hreleased : m'.Released i) : m.Orderly (.opened i known) := by
  obtain ⟨o, ho, hstep⟩ := Option.bind_eq_some_iff.mp hstep
  split_ifs at hstep with hhanded
  cases known with
  | true => exact ⟨o, ho, hhanded, rfl⟩
  | false =>
    cases hstep
    exact absurd hreleased (not_released hK ho hhanded)

theorem lost_needs (hK : m.Kept) (hstep : m.step (.lost i) = some m')
    (hreleased : m'.Released i) : m.Orderly (.lost i) := by
  obtain ⟨o, ho, hstep⟩ := Option.bind_eq_some_iff.mp hstep
  split_ifs at hstep with hhanded
  cases hstep
  exact not_released hK ho hhanded hreleased

/-! ## Sessions are closed -/

/-- What is still taken was left alone. -/
theorem close_eq_of_live {p : ℕ → Bool} (h : (close p o).Live) :
    close p o = o ∧ (o.status = .opened → p o.number = false) := by
  rw [close] at h ⊢
  split_ifs at h ⊢ with hclose
  · rcases h with h | h <;> cases h
  · exact ⟨rfl, fun hopened => Bool.eq_false_iff.mpr fun hp => hclose ⟨hopened, hp⟩⟩

theorem close_of_handed {p : ℕ → Bool} (h : o.status = .handed) : close p o = o := by
  rw [close, if_neg]
  rintro ⟨hopened, -⟩
  rw [h] at hopened
  cases hopened

/-- **Closing.** Entries are cleared where `p` is true, those in use all of them, and no requested
one: then what is kept is kept. -/
theorem close_keeps {p : ℕ → Bool} (hK : m.Kept) (hS : m.Sane)
    (ht : ∀ n, t n = m.table n ∨ p n = true ∧ t n = ⟨false, false, 0⟩)
    (huse : ∀ n, p n = true → (t n).bfInUse = false)
    (hhanded : ∀ o ∈ m.openings, o.status = .handed → t o.number = m.table o.number) :
    Kept ⟨t, m.openings.map (close p)⟩ ∧ Sane ⟨t, m.openings.map (close p)⟩ := by
  refine ⟨fun a ha => ?_, ⟨?_, fun k hk => ?_, ?_⟩⟩
  · obtain ⟨o, ho, rfl⟩ := List.mem_map.mp ha
    refine ⟨fun h => ?_, fun h => ?_⟩
    · obtain ⟨heq, -⟩ := close_eq_of_live (Or.inl h)
      rw [heq] at h ⊢
      have hsame := hhanded o ho h
      rw [available_congr hsame, canAdd_congr hsame]
      exact (hK o ho).1 h
    · obtain ⟨heq, hp⟩ := close_eq_of_live (Or.inr h)
      rw [heq] at h ⊢
      rcases ht o.number with hsame | ⟨hcleared, -⟩
      · dsimp only
        rw [hsame]
        exact (hK o ho).2 h
      · rw [hp h] at hcleared
        cases hcleared
  · rcases ht (nbMaxSession - 1) with hsame | ⟨-, hcleared⟩
    · rw [available_congr hsame]
      exact hS.last
    · exact available_of_cleared hcleared
  · have hp : p k ≠ true := fun hp => by
      rw [huse k hp] at hk
      cases hk
    rcases ht k with hsame | ⟨hcleared, -⟩
    · dsimp only at hk
      rw [hsame] at hk
      obtain ⟨o, ho, hopened, hnumber⟩ := hS.owner k hk
      refine ⟨o, List.mem_map.mpr ⟨o, ho, ?_⟩, hopened, hnumber⟩
      rw [close, if_neg]
      rintro ⟨-, hp'⟩
      exact hp (hnumber ▸ hp')
    · exact absurd hcleared hp
  · refine hS.distinct.of_moved fun j a hj hlive => ?_
    rw [List.getElem?_map] at hj
    obtain ⟨o, ho, rfl⟩ := Option.map_eq_some_iff.mp hj
    obtain ⟨heq, -⟩ := close_eq_of_live hlive
    rw [heq] at hlive ⊢
    exact ⟨o, ho, hlive, rfl⟩

theorem closed_keeps (hK : m.Kept) (hS : m.Sane) (h : m.Orderly (.closed n)) :
    ∃ m', m.step (.closed n) = some m' ∧ m'.Kept ∧ m'.Sane := by
  obtain ⟨hn, hpending⟩ := h
  refine ⟨_, by rw [step, SessionTable.deleteSessionEntry, if_pos hn]; rfl, ?_⟩
  refine close_keeps hK hS (fun k => ?_) (fun k hk => ?_) fun o ho hhanded => ?_
  · rcases eq_or_ne k n with rfl | hne
    · exact Or.inr ⟨beq_self_eq_true k, update_self ..⟩
    · exact Or.inl (update_of_ne hne ..)
  · rw [eq_of_beq hk, update_self]
  · exact update_of_ne (hpending o ho hhanded) ..

theorem closed_needs (hstep : m.step (.closed n) = some m') (hK' : m'.Kept) :
    m.Orderly (.closed n) := by
  rw [step, SessionTable.deleteSessionEntry] at hstep
  split_ifs at hstep with hn
  · cases hstep
    refine ⟨hn, fun o ho hhanded hnumber => ?_⟩
    -- its request is forgotten
    have hmem : o ∈ m.openings.map (close (· == n)) :=
      List.mem_map.mpr ⟨o, ho, close_of_handed hhanded⟩
    have hnot := ((hK' o hmem).1 hhanded).1
    rw [hnumber, available_of_cleared (update_self ..)] at hnot
    cases hnot
  · cases hstep

/-- An entry that is not in use is left alone by an ejection. -/
theorem podEjected_of_not_inUse (h : (t n).bfInUse = false) :
    t.podEjected n = t n := by
  rw [SessionTable.podEjected, if_neg]
  rintro ⟨-, -, huse⟩
  rw [h] at huse
  cases huse

theorem ejected_keeps (hK : m.Kept) (hS : m.Sane) :
    ∃ m', m.step .ejected = some m' ∧ m'.Kept ∧ m'.Sane := by
  refine ⟨_, rfl, close_keeps hK hS (fun k => ?_) (fun k hk => ?_) fun o ho hhanded => ?_⟩
  · rw [SessionTable.podEjected]
    split_ifs with hclose
    · exact Or.inr ⟨decide_eq_true ⟨hclose.1, hclose.2.1⟩, rfl⟩
    · exact Or.inl rfl
  · rw [SessionTable.podEjected]
    obtain ⟨hfirst, hlt⟩ := of_decide_eq_true hk
    split_ifs with hclose
    · rfl
    · exact Bool.eq_false_iff.mpr fun huse => hclose ⟨hfirst, hlt, huse⟩
  · exact podEjected_of_not_inUse (canAdd_iff.mp ((hK o ho).1 hhanded).2).2

theorem ejected_needs (hK : m.Kept) (hanswers : m.Answers .ejected) : m.Orderly .ejected := by
  intro o ho hhanded
  have hfree : m.table.podEjected.available o.number = true := hanswers _ rfl o ho hhanded
  obtain ⟨hnot, hadd⟩ := (hK o ho).1 hhanded
  rw [SessionTable.available, podEjected_of_not_inUse (canAdd_iff.mp hadd).2] at hfree
  exact Bool.noConfusion (hnot.symm.trans hfree)

/-! ## Where APDUs go -/

/-- **Routing.** An APDU goes to the resource its session was opened with, and nowhere else. -/
theorem apdu_answers (hK : m.Kept) (hS : m.Sane) : m.Answers (.apdu n) := by
  intro rid
  rw [SessionTable.parseAPDU]
  refine ⟨fun h => ?_, fun h => ?_⟩
  · split_ifs at h with hn hvalid huse
    obtain ⟨o, ho, hopened, rfl⟩ := hS.owner n (eq_true_of_ne_false huse)
    refine ⟨hvalid, o, ho, hopened, rfl, ?_⟩
    rw [← Option.some.inj h]
    exact ((hK o ho).2 hopened).2.2.symm
  · obtain ⟨hvalid, o, ho, hopened, rfl, rfl⟩ := h
    obtain ⟨hlt, huse, hrid⟩ := (hK o ho).2 hopened
    rw [if_neg (Nat.not_le.mpr hlt), if_neg hvalid, if_neg (by rw [huse]; exact Bool.noConfusion),
      hrid]

/-! ## Runs -/

/-- What an orderly step does. -/
theorem keeps (e : SessionEvent) (hK : m.Kept) (hS : m.Sane) (h : m.Orderly e) :
    m.Answers e ∧ ∃ m', m.step e = some m' ∧ m'.Kept ∧ m'.Sane := by
  cases e with
  | find rid => exact ⟨trivial, find_keeps hK hS h⟩
  | opened i known =>
    obtain ⟨m', hstep, hkept, hreleased⟩ := opened_keeps hK hS h
    refine ⟨fun m'' hm'' => ?_, m', hstep, hkept⟩
    obtain rfl := Option.some.inj (hstep.symm.trans hm'')
    exact hreleased
  | lost i => exact h.elim
  | closed n => exact ⟨trivial, closed_keeps hK hS h⟩
  | ejected => exact ⟨fun _ _ o ho hhanded => absurd hhanded (h o ho), ejected_keeps hK hS⟩
  | apdu n => exact ⟨apdu_answers hK hS, m, rfl, hK, hS⟩

/-- What a step must be like. -/
theorem needs (e : SessionEvent) (hK : m.Kept) (hS : m.Sane) (hanswers : m.Answers e)
    (hstep : m.step e = some m') (hK' : m'.Kept) : m.Orderly e := by
  cases e with
  | find rid => exact find_needs hS hstep hK'
  | opened i known => exact opened_needs hK hstep (hanswers m' hstep)
  | lost i => exact lost_needs hK hstep (hanswers m' hstep)
  | closed n => exact closed_needs hstep hK'
  | ejected => exact ejected_needs hK hanswers
  | apdu n => exact trivial

/-- **The sessions.** A run keeps its sessions, and answers every event, exactly when each of its
steps is orderly. -/
theorem sessions_iff (events : List SessionEvent) :
    (Throughout step Kept start events ∧ EachStep step Answers start events) ↔
      EachStep step Orderly start events :=
  Throughout.and_eachStep_iff_of (J := Sane) (fun _ e hK hS h => keeps e hK hS h)
    (fun _ e _ hK hS hanswers hstep hK' => needs e hK hS hanswers hstep hK') kept_start sane_start

/-- The card closes the session 256. -/
theorem not_sessions_outside : ¬ (Throughout step Kept start [.closed 256] ∧
    EachStep step Answers start [.closed 256]) := by
  intro h
  obtain ⟨m, hm, -⟩ := h.1 [.closed 256] [] rfl
  cases hm

end AppMgr

end MediaFramework
