import Mathlib.Data.Set.Insert
import Mathlib.Logic.Function.Basic
import MediaFramework.Lib.CString
import MediaFramework.Lib.KeyedList
import MediaFramework.Lib.Run

/-!
# Receivers of a source (`RBIManager::addReceiverId` / `removeReceiverId`)

The manager keeps, for every source URI, the list of the receivers that watch
it: live or from the time-shift buffer (`Live_TSB`), and for recordings (the
`DVR` flag and the recording ids). A receiver is registered once for live or
TSB and once for each recording, and the registrations are withdrawn one by one.

What the list is for is said by a ledger: a receiver has a live registration or
not, and a set of recordings. The results compare the two along runs of calls.
Three behaviours of the code part them, and the results name each:

* a recording added to a receiver that is already listed sets the `DVR` flag
  only where the receiver has no recordings, and by then it has one;
* the name of a receiver is kept in 255 bytes, and compared in full;
* the removing loop increments its iterator after erasing, and erasing the last
  receiver leaves it at the end of the list.
-/

namespace MediaFramework

open Function (update update_of_ne update_self)

open KeyedList

/-- `RBI_LIVEDVR`. -/
inductive RbiLiveDvr : Type where
  /-- a recording -/
  | dvr
  /-- live viewing -/
  | live
  /-- viewing from the time-shift buffer -/
  | tsb
  /-- either of the two viewings, whichever is there -/
  | liveTsb
  deriving DecidableEq

/-- The enumeration's value as an `int`. -/
def RbiLiveDvr.toInt : RbiLiveDvr → ℕ
  | .dvr => 0
  | .live => 1
  | .tsb => 2
  | .liveTsb => 3

/-- `LiveDVR`. -/
structure LiveDvr where
  /-- `Live_TSB`: 0 for neither, else the `RBI_LIVEDVR` value it was set from -/
  liveTsb : ℕ
  /-- `DVR` -/
  dvr : Bool

/-- `ReceiverActivity`. -/
structure ReceiverActivity where
  /-- `char receiverId[256]` -/
  receiverId : CString
  activityState : String
  tuneTime : String
  lastActivityTime : String
  liveDvrState : LiveDvr

/-- `ReceiverData`. -/
structure ReceiverData where
  receiverActivity : ReceiverActivity
  recordingIds : List CString

namespace ReceiverData

/-- The name a receiver is looked up by. -/
def receiverId (d : ReceiverData) : CString := d.receiverActivity.receiverId

/-- The `Live_TSB` field. -/
def liveTsb (d : ReceiverData) : ℕ := d.receiverActivity.liveDvrState.liveTsb

/-- The `DVR` flag. -/
def dvr (d : ReceiverData) : Bool := d.receiverActivity.liveDvrState.dvr

end ReceiverData

/-- `ReceiverList`. -/
abbrev ReceiverList := List ReceiverData

/-- `SrcUriMap`. -/
abbrev SrcUriMap := CString → Option ReceiverList

/-- `snprintf(tuneTime, sizeof(tuneTime)-1, "%lld", UTCMILLIS(tv))`: at most 13
digits and the terminator. -/
def tuneTimeOf (utcMillis : ℕ) : String := String.ofList ((toString utcMillis).toList.take 13)

/-! ## The two calls -/

/-- The record built for a receiver that is not listed yet. -/
def newReceiver (utcMillis : ℕ) (receiverId : CString) (liveDvr : RbiLiveDvr)
    (recordingId : Option CString) : ReceiverData where
  receiverActivity :=
    { receiverId := receiverId.strncpy 255
      activityState := "Active"
      tuneTime := tuneTimeOf utcMillis
      lastActivityTime := ""
      liveDvrState :=
        match liveDvr with
        | .dvr => { liveTsb := 0, dvr := true }
        | _ => { liveTsb := liveDvr.toInt, dvr := false } }
  recordingIds := recordingId.toList

namespace ReceiverData

/-- `push_back` of a recording id that is not in the list yet. -/
def withRecording (d : ReceiverData) (recordingId : CString) : ReceiverData :=
  if recordingId ∈ d.recordingIds then d
  else { d with recordingIds := d.recordingIds ++ [recordingId] }

/-- `liveDVRState.DVR = b`. -/
def setDvr (d : ReceiverData) (b : Bool) : ReceiverData :=
  { d with receiverActivity :=
    { d.receiverActivity with liveDvrState := { d.receiverActivity.liveDvrState with dvr := b } } }

/-- `liveDVRState.Live_TSB = n`. -/
def setLiveTsb (d : ReceiverData) (n : ℕ) : ReceiverData :=
  { d with receiverActivity :=
    { d.receiverActivity with
      liveDvrState := { d.receiverActivity.liveDvrState with liveTsb := n } } }

/-- What `addReceiverId` does to a receiver that is already listed. -/
def readd (utcMillis : ℕ) (liveDvr : RbiLiveDvr) (recordingId : Option CString)
    (d : ReceiverData) : ReceiverData :=
  let d := { d with receiverActivity := { d.receiverActivity with tuneTime := tuneTimeOf utcMillis } }
  match liveDvr with
  | .dvr =>
    let d := recordingId.elim d d.withRecording
    -- the recording has just been pushed, so this list is empty only without one
    if d.recordingIds.isEmpty then d.setDvr true else d
  | _ => d.setLiveTsb liveDvr.toInt

/-- What `removeReceiverId` does to the receiver it finds. -/
def deregister (liveDvr : RbiLiveDvr) (recordingId : Option CString) (d : ReceiverData) :
    ReceiverData :=
  match liveDvr with
  | .dvr =>
    let d := recordingId.elim d fun id => { d with recordingIds := d.recordingIds.erase id }
    if d.recordingIds.length = 0 then d.setDvr false else d
  | _ => d.setLiveTsb 0

/-- The test under which `removeReceiverId` erases the receiver. -/
def idle (d : ReceiverData) : Bool := d.liveTsb == 0 && !d.dvr

end ReceiverData

/-- `RBIManager::addReceiverId`. -/
def addReceiverId (srcUriMap : SrcUriMap) (utcMillis : ℕ) (uri receiverId : CString)
    (liveDvr : RbiLiveDvr) (recordingId : Option CString) : SrcUriMap :=
  let receiverData := newReceiver utcMillis receiverId liveDvr recordingId
  match srcUriMap uri with
  | none => update srcUriMap uri (some [receiverData])
  | some receiverIdList =>
    update srcUriMap uri <| some <|
      upsert ReceiverData.receiverId receiverId
        (ReceiverData.readd utcMillis liveDvr recordingId) receiverData receiverIdList

/-- `RBIManager::removeReceiverId`; `none` where it increments a past-the-end
iterator. -/
def removeReceiverId (srcUriMap : SrcUriMap) (uri receiverId : CString)
    (liveDvr : RbiLiveDvr) (recordingId : Option CString) : Option SrcUriMap :=
  match srcUriMap uri with
  | none => some srcUriMap
  | some receiverIdList =>
    (eraseWalk ReceiverData.receiverId receiverId
        (ReceiverData.deregister liveDvr recordingId) ReceiverData.idle receiverIdList).map
      fun left => update srcUriMap uri (if left.isEmpty then none else some left)

namespace Receivers

/-- The kinds of registration a receiver makes and withdraws. -/
inductive Registering : Type where
  /-- `RBI_LIVE`, `RBI_TSB` or `RBI_LIVE_TSB`, without a recording -/
  | live (kind : RbiLiveDvr) (notDvr : kind ≠ .dvr)
  /-- `RBI_DVR`, with the id of the recording -/
  | dvr (recordingId : CString)

/-- The `isLiveSrc` argument of a registration. -/
def Registering.liveDvr : Registering → RbiLiveDvr
  | .live kind _ => kind
  | .dvr _ => .dvr

/-- The `recordingId` argument of a registration. -/
def Registering.recordingId : Registering → Option CString
  | .live _ _ => none
  | .dvr id => some id

/-- A call on the manager. -/
inductive Call : Type where
  /-- `addReceiverId` at a time of day -/
  | add (utcMillis : ℕ) (uri receiverId : CString) (r : Registering)
  /-- `removeReceiverId` -/
  | remove (uri receiverId : CString) (r : Registering)

/-- One call on the manager's map. -/
def step (m : SrcUriMap) : Call → Option SrcUriMap
  | .add utcMillis uri receiverId r =>
    some (addReceiverId m utcMillis uri receiverId r.liveDvr r.recordingId)
  | .remove uri receiverId r => removeReceiverId m uri receiverId r.liveDvr r.recordingId

/-- The map of a new manager. -/
def empty : SrcUriMap := fun _ => none

/-! ## The ledger -/

/-- What a receiver has registered for and not withdrawn. -/
structure Registration where
  /-- a live or TSB registration -/
  live : Prop
  /-- the recordings -/
  recordings : Set CString

namespace Registration

/-- Something is registered. -/
def Active (g : Registration) : Prop := g.live ∨ g.recordings.Nonempty

/-- Register. -/
def add (g : Registration) : Registering → Registration
  | .live _ _ => { g with live := True }
  | .dvr id => { g with recordings := insert id g.recordings }

/-- Withdraw. -/
def remove (g : Registration) : Registering → Registration
  | .live _ _ => { g with live := False }
  | .dvr id => { g with recordings := g.recordings \ {id} }

end Registration

/-- The registrations of every receiver at every source. -/
abbrev Ledger := CString → CString → Registration

/-- Change one receiver's registration. -/
def Ledger.change (b : Ledger) (uri receiverId : CString)
    (f : Registration → Registration) : Ledger :=
  update b uri (update (b uri) receiverId (f (b uri receiverId)))

/-- Enter one call. -/
def Ledger.enter (b : Ledger) : Call → Ledger
  | .add _ uri receiverId r => b.change uri receiverId fun g => g.add r
  | .remove uri receiverId r => b.change uri receiverId fun g => g.remove r

/-- The ledger before any call. -/
def Ledger.blank : Ledger := fun _ _ => { live := False, recordings := ∅ }

/-- The ledger after the calls. -/
def ledger (calls : List Call) : Ledger := calls.foldl Ledger.enter Ledger.blank

/-! ## What one call does to the lists -/

/-- The list of the receivers of a source; empty where the map has none. -/
def receivers (m : SrcUriMap) (uri : CString) : ReceiverList := (m uri).getD []

/-- A receiver's record at a source. -/
def receiver (m : SrcUriMap) (uri receiverId : CString) : Option ReceiverData :=
  lookup ReceiverData.receiverId receiverId (receivers m uri)

theorem receivers_addReceiverId (m : SrcUriMap) (utcMillis : ℕ) (uri receiverId : CString)
    (liveDvr : RbiLiveDvr) (recordingId : Option CString) :
    receivers (addReceiverId m utcMillis uri receiverId liveDvr recordingId) =
      update (receivers m) uri
        (upsert ReceiverData.receiverId receiverId
          (ReceiverData.readd utcMillis liveDvr recordingId)
          (newReceiver utcMillis receiverId liveDvr recordingId) (receivers m uri)) := by
  funext uri'
  by_cases hu : uri' = uri
  · subst hu
    rcases hm : m uri' with _ | l <;> simp [receivers, addReceiverId, hm, upsert]
  · rcases hm : m uri with _ | l <;> simp [receivers, addReceiverId, hm, hu]

/-- A removal walks the source's list and leaves the lists of other sources. -/
theorem removeReceiverId_eq_some {m m' : SrcUriMap} {uri receiverId : CString}
    {liveDvr : RbiLiveDvr} {recordingId : Option CString}
    (h : removeReceiverId m uri receiverId liveDvr recordingId = some m') :
    ∃ left, eraseWalk ReceiverData.receiverId receiverId
        (ReceiverData.deregister liveDvr recordingId) ReceiverData.idle (receivers m uri)
          = some left ∧
      receivers m' = update (receivers m) uri left := by
  rcases hm : m uri with _ | l
  · simp only [removeReceiverId, hm] at h
    obtain rfl : m = m' := Option.some.inj h
    refine ⟨[], ?_, ?_⟩
    · rw [receivers, hm]
      rfl
    · rw [Function.eq_update_self_iff, receivers, hm]
      rfl
  · simp only [removeReceiverId, hm] at h
    obtain ⟨left, hleft, rfl⟩ := Option.map_eq_some_iff.mp h
    refine ⟨left, ?_, ?_⟩
    · rw [receivers, hm]
      exact hleft
    · funext uri'
      by_cases hu : uri' = uri
      · subst hu
        cases left <;> simp [receivers]
      · simp [receivers, hu]

theorem removeReceiverId_eq_none_iff {m : SrcUriMap} {uri receiverId : CString}
    {liveDvr : RbiLiveDvr} {recordingId : Option CString} :
    removeReceiverId m uri receiverId liveDvr recordingId = none ↔
      eraseWalk ReceiverData.receiverId receiverId
        (ReceiverData.deregister liveDvr recordingId) ReceiverData.idle (receivers m uri)
          = none := by
  rcases hm : m uri with _ | l <;> simp [removeReceiverId, receivers, hm, eraseWalk]

/-! ## The record against the registration -/

/-- What a listed receiver's record says is what the receiver has registered;
a receiver that is not listed has registered nothing. -/
def Tracks : Option ReceiverData → Registration → Prop
  | none, g => ¬ g.Active
  | some d, g =>
    (d.liveTsb ≠ 0 ↔ g.live) ∧ d.recordingIds.Nodup ∧
      (∀ id, id ∈ d.recordingIds ↔ id ∈ g.recordings) ∧
      (d.dvr = true → d.recordingIds ≠ []) ∧ (d.liveTsb ≠ 0 ∨ d.dvr = true)

section Record

variable (d : ReceiverData) (utcMillis : ℕ) (id : CString) {kind : RbiLiveDvr}
  {liveDvr : RbiLiveDvr} {recordingId : Option CString}

@[simp] theorem receiverId_readd :
    (d.readd utcMillis liveDvr recordingId).receiverId = d.receiverId := by
  unfold ReceiverData.readd ReceiverData.withRecording
  cases liveDvr <;> cases recordingId <;> dsimp only [Option.elim] <;> (repeat' split) <;> rfl

@[simp] theorem receiverId_deregister :
    (d.deregister liveDvr recordingId).receiverId = d.receiverId := by
  unfold ReceiverData.deregister
  cases liveDvr <;> cases recordingId <;> dsimp only [Option.elim] <;> (repeat' split) <;> rfl

/-- Adding a recording to a listed receiver never sets its `DVR` flag: when the
code looks whether there are recordings, there is at least the one it pushed. -/
theorem readd_dvr :
    (d.readd utcMillis .dvr (some id)).liveTsb = d.liveTsb ∧
      (d.readd utcMillis .dvr (some id)).dvr = d.dvr ∧
      (d.readd utcMillis .dvr (some id)).recordingIds =
        if id ∈ d.recordingIds then d.recordingIds else d.recordingIds ++ [id] := by
  unfold ReceiverData.readd ReceiverData.withRecording
  by_cases hid : id ∈ d.recordingIds
  · have hne : d.recordingIds.isEmpty = false := by
      rw [List.isEmpty_eq_false_iff]
      exact List.ne_nil_of_mem hid
    simp only [Option.elim, hid, if_true, hne, Bool.false_eq_true, if_false]
    exact ⟨rfl, rfl, trivial⟩
  · have hne : (d.recordingIds ++ [id]).isEmpty = false := by
      rw [List.isEmpty_eq_false_iff]
      exact List.append_ne_nil_of_right_ne_nil _ (List.cons_ne_nil _ _)
    simp only [Option.elim, hid, if_false, hne, Bool.false_eq_true]
    exact ⟨rfl, rfl, trivial⟩

theorem readd_live (h : kind ≠ .dvr) :
    d.readd utcMillis kind none =
      { d with receiverActivity :=
        { d.receiverActivity with
          tuneTime := tuneTimeOf utcMillis
          liveDvrState := { d.receiverActivity.liveDvrState with liveTsb := kind.toInt } } } := by
  cases kind with
  | dvr => exact absurd rfl h
  | live => rfl
  | tsb => rfl
  | liveTsb => rfl

/-- Withdrawing a recording clears the `DVR` flag once no recording is left. -/
theorem deregister_dvr :
    (d.deregister .dvr (some id)).liveTsb = d.liveTsb ∧
      (d.deregister .dvr (some id)).recordingIds = d.recordingIds.erase id ∧
      ((d.deregister .dvr (some id)).dvr = true ↔
        d.dvr = true ∧ d.recordingIds.erase id ≠ []) := by
  unfold ReceiverData.deregister
  by_cases hlen : (d.recordingIds.erase id).length = 0
  · have hnil : d.recordingIds.erase id = [] := List.eq_nil_of_length_eq_zero hlen
    simp only [Option.elim, hlen, if_true]
    exact ⟨rfl, rfl, iff_of_false Bool.false_ne_true fun h => h.2 hnil⟩
  · have hne : d.recordingIds.erase id ≠ [] := fun h => hlen (congrArg List.length h)
    simp only [Option.elim, hlen, if_false]
    exact ⟨rfl, trivial, ⟨fun h => ⟨h, hne⟩, fun h => h.1⟩⟩

theorem deregister_live (h : kind ≠ .dvr) : d.deregister kind none = d.setLiveTsb 0 := by
  cases kind with
  | dvr => exact absurd rfl h
  | live => rfl
  | tsb => rfl
  | liveTsb => rfl

end Record

theorem RbiLiveDvr.toInt_ne_zero {kind : RbiLiveDvr} (h : kind ≠ .dvr) : kind.toInt ≠ 0 := by
  cases kind with
  | dvr => exact absurd rfl h
  | live => decide
  | tsb => decide
  | liveTsb => decide

/-- A listed receiver has something registered. -/
theorem Tracks.active_of_some {d : ReceiverData} {g : Registration} (h : Tracks (some d) g) :
    g.Active := by
  obtain ⟨hlive, -, hrec, hdvr, hor⟩ := h
  rcases hor with hl | hd
  · exact Or.inl (hlive.mp hl)
  · obtain ⟨id, hid⟩ := List.exists_mem_of_ne_nil _ (hdvr hd)
    exact Or.inr ⟨id, (hrec id).mp hid⟩

/-- A receiver that is listed for a recording only has its `DVR` flag set. -/
theorem Tracks.dvr_of_not_live {d : ReceiverData} {g : Registration} (h : Tracks (some d) g)
    (hl : ¬ g.live) : d.dvr = true := by
  obtain ⟨hlive, -, -, -, hor⟩ := h
  exact hor.resolve_left fun h0 => hl (hlive.mp h0)

/-- **Adding.** Whether the receiver was listed or not, the record after the
call tracks the registration with the call entered. -/
theorem Tracks.add {o : Option ReceiverData} {g : Registration} (h : Tracks o g)
    (utcMillis : ℕ) (receiverId : CString) (r : Registering) :
    Tracks (some (o.elim (newReceiver utcMillis receiverId r.liveDvr r.recordingId)
      (ReceiverData.readd utcMillis r.liveDvr r.recordingId))) (g.add r) := by
  rcases o with _ | d
  · -- the first registration
    have hlive : ¬ g.live := fun hl => h (Or.inl hl)
    have hrec : g.recordings = ∅ := Set.not_nonempty_iff_eq_empty.mp fun hr => h (Or.inr hr)
    cases r with
    | live kind hk =>
      have hl : (newReceiver utcMillis receiverId kind none).liveTsb = kind.toInt ∧
          (newReceiver utcMillis receiverId kind none).dvr = false := by
        cases kind with
        | dvr => exact absurd rfl hk
        | live => exact ⟨rfl, rfl⟩
        | tsb => exact ⟨rfl, rfl⟩
        | liveTsb => exact ⟨rfl, rfl⟩
      have hne : (newReceiver utcMillis receiverId kind none).liveTsb ≠ 0 :=
        hl.1 ▸ RbiLiveDvr.toInt_ne_zero hk
      refine ⟨iff_of_true hne trivial, List.nodup_nil, fun id => ?_, fun hd => ?_, Or.inl hne⟩
      · simp [Registering.recordingId, newReceiver, Registration.add, hrec]
      · exact absurd (hl.2.symm.trans hd) Bool.false_ne_true
    | dvr id =>
      refine ⟨iff_of_false (fun h0 => h0 rfl) hlive, List.nodup_singleton id, fun id' => ?_,
        fun _ => List.cons_ne_nil _ _, Or.inr rfl⟩
      simp [Registering.recordingId, newReceiver, Registration.add, hrec]
  · -- a receiver already listed
    obtain ⟨hlive, hnodup, hrec, hdvr, hor⟩ := h
    cases r with
    | live kind hk =>
      have hne := RbiLiveDvr.toInt_ne_zero hk
      show Tracks (some (d.readd utcMillis kind none)) _
      rw [readd_live d utcMillis hk]
      exact ⟨iff_of_true hne trivial, hnodup, hrec, hdvr, Or.inl hne⟩
    | dvr id =>
      obtain ⟨hl', hd', hr'⟩ := readd_dvr d utcMillis id
      show Tracks (some (d.readd utcMillis .dvr (some id))) _
      refine ⟨?_, ?_, fun id' => ?_, fun _ => ?_, ?_⟩
      · rw [hl']
        exact hlive
      · rw [hr']
        split
        · exact hnodup
        · next hid => exact List.nodup_append_comm.mp (List.nodup_cons.mpr ⟨hid, hnodup⟩)
      · rw [hr']
        show _ ↔ id' = id ∨ id' ∈ g.recordings
        rw [← hrec id']
        split
        · next hid =>
          refine ⟨Or.inr, fun h => ?_⟩
          rcases h with rfl | h
          · exact hid
          · exact h
        · rw [List.mem_append, List.mem_singleton]
          exact or_comm
      · rw [hr']
        split
        · next hid => exact List.ne_nil_of_mem hid
        · exact List.append_ne_nil_of_right_ne_nil _ (List.cons_ne_nil _ _)
      · rw [hl', hd']
        exact hor

/-- **Removing.** The record tracks the registration with the call entered,
provided a live registration is not withdrawn from a record that has recordings
but no `DVR` flag. -/
theorem Tracks.remove {o : Option ReceiverData} {g : Registration} (h : Tracks o g)
    {r : Registering}
    (hr : r.liveDvr = .dvr ∨ ∀ d ∈ o, d.dvr = true ∨ d.recordingIds = []) :
    Tracks ((o.map (ReceiverData.deregister r.liveDvr r.recordingId)).filter
      fun d => !d.idle) (g.remove r) := by
  rcases o with _ | d
  · -- nothing was registered, so nothing is left
    intro hactive
    refine h ?_
    cases r with
    | live kind hk => exact hactive.imp False.elim fun h => h
    | dvr id => exact hactive.imp (fun h => h) fun ⟨id', hid'⟩ => ⟨id', hid'.1⟩
  · obtain ⟨hlive, hnodup, hrec, hdvr, hor⟩ := h
    rw [Option.map_some, Option.filter_some]
    cases r with
    | live kind hk =>
      have hcond : d.dvr = true ∨ d.recordingIds = [] :=
        (hr.resolve_left hk) d rfl
      show Tracks (if (!(d.deregister kind none).idle) = true then
        some (d.deregister kind none) else none) _
      rw [deregister_live d hk]
      rcases hd : d.dvr with _ | _
      · -- the flag is clear, so there are no recordings: the receiver goes
        have hnil : d.recordingIds = [] := by
          rcases hcond with hc | hc
          · rw [hd] at hc
            cases hc
          · exact hc
        have hidle : (d.setLiveTsb 0).idle = true := by
          show ((0 : ℕ) == 0 && !d.dvr) = true
          rw [hd]
          rfl
        rw [hidle]
        rintro (hl | ⟨id, hid⟩)
        · exact hl
        · have := (hrec id).mpr hid
          rw [hnil] at this
          cases this
      · -- the flag keeps the receiver
        have hidle : (d.setLiveTsb 0).idle = false := by
          show ((0 : ℕ) == 0 && !d.dvr) = false
          rw [hd]
          rfl
        rw [hidle]
        exact ⟨iff_of_false (fun h0 => h0 rfl) (fun h0 => h0), hnodup, hrec, hdvr, Or.inr hd⟩
    | dvr id =>
      obtain ⟨hl', hr', hd'⟩ := deregister_dvr d id
      have hmem : ∀ id', id' ∈ d.recordingIds.erase id ↔ id' ∈ g.recordings \ {id} := by
        intro id'
        rw [hnodup.mem_erase_iff, hrec id', Set.mem_sdiff, Set.mem_singleton_iff]
        exact and_comm
      show Tracks (if (!(d.deregister .dvr (some id)).idle) = true then
        some (d.deregister .dvr (some id)) else none) _
      rcases hidle : (d.deregister .dvr (some id)).idle with _ | _
      · refine ⟨?_, ?_, fun id' => ?_, fun h => ?_, ?_⟩
        · rw [hl']
          exact hlive
        · rw [hr']
          exact hnodup.erase id
        · rw [hr']
          exact hmem id'
        · rw [hr']
          exact (hd'.mp h).2
        · rcases Bool.and_eq_false_iff.mp hidle with h0 | h0
          · exact Or.inl (by simpa using h0)
          · exact Or.inr (by simpa using h0)
      · -- neither live nor flagged: nothing is left
        obtain ⟨h0, hflag⟩ := Bool.and_eq_true_iff.mp hidle
        rw [hl', beq_iff_eq] at h0
        have hnl : ¬ g.live := fun hg => hlive.mpr hg h0
        have hd : d.dvr = true := hor.resolve_left fun hne => hne h0
        have hnil : d.recordingIds.erase id = [] := by
          by_contra hne
          rw [hd'.mpr ⟨hd, hne⟩] at hflag
          cases hflag
        rintro (hl | ⟨id', hid'⟩)
        · exact hnl hl
        · have := (hmem id').mpr hid'
          rw [hnil] at this
          cases this

/-! ## Runs of calls -/

/-- A receiver is in the list of a source. -/
def Present (m : SrcUriMap) (uri receiverId : CString) : Prop :=
  (receiver m uri receiverId).isSome = true

instance (m : SrcUriMap) (uri receiverId : CString) : Decidable (Present m uri receiverId) :=
  inferInstanceAs (Decidable (_ = true))

/-- The map holds what the ledger says: a receiver is listed exactly while a
registration of it is active; one listed for recordings only has its `DVR` flag
set; and a removal leaves every other receiver and every other source as it
was. -/
structure Faithful (m : SrcUriMap) (b : Ledger) : Prop where
  present_iff : ∀ uri receiverId, Present m uri receiverId ↔ (b uri receiverId).Active
  dvr_of_not_live : ∀ uri receiverId, ∀ d ∈ receiver m uri receiverId,
    ¬ (b uri receiverId).live → d.dvr = true
  removal_frame : ∀ uri receiverId r m', step m (.remove uri receiverId r) = some m' →
    others ReceiverData.receiverId receiverId (receivers m' uri) =
      others ReceiverData.receiverId receiverId (receivers m uri) ∧
    ∀ uri', uri' ≠ uri → receivers m' uri' = receivers m uri'

/-- The calls after which the map still agrees with the ledger: an added
receiver's name fits its buffer, and a live registration is not withdrawn from
a record that has recordings but no `DVR` flag. -/
def Proper (m : SrcUriMap) : Call → Prop
  | .add _ _ receiverId _ => receiverId.length ≤ 255
  | .remove uri receiverId r =>
    r.liveDvr = .dvr ∨ ∀ d ∈ receiver m uri receiverId, d.dvr = true ∨ d.recordingIds = []

instance (m : SrcUriMap) : ∀ c : Call, Decidable (Proper m c)
  | .add _ _ receiverId _ => inferInstanceAs (Decidable (receiverId.length ≤ 255))
  | .remove uri receiverId r => inferInstanceAs (Decidable (r.liveDvr = .dvr ∨
      ∀ d ∈ receiver m uri receiverId, d.dvr = true ∨ d.recordingIds = []))

/-- The call erases the last receiver of the source's list. -/
def ErasesLast (m : SrcUriMap) : Call → Prop
  | .add .. => False
  | .remove uri receiverId r =>
    ∃ d ∈ (receivers m uri).getLast?, d.receiverId = receiverId ∧
      (d.deregister r.liveDvr r.recordingId).idle = true

/-- The lists have one record for each receiver, and each record tracks the
registration. -/
def Agrees (m : SrcUriMap) (b : Ledger) : Prop :=
  (∀ uri, Distinct ReceiverData.receiverId (receivers m uri)) ∧
    ∀ uri receiverId, Tracks (receiver m uri receiverId) (b uri receiverId)

theorem agrees_empty : Agrees empty Ledger.blank :=
  ⟨fun _ => List.nodup_nil, fun _ _ h => h.elim id fun ⟨_, hid⟩ => hid⟩

/-- A call that replaces the list of one source by one that differs at one
receiver only, keeps the agreement if that receiver's record does. -/
theorem Agrees.change {m m' : SrcUriMap} {b : Ledger} {uri receiverId : CString}
    {f : Registration → Registration} {l : ReceiverList} (h : Agrees m b)
    (hm : receivers m' = update (receivers m) uri l)
    (hd : Distinct ReceiverData.receiverId l)
    (ho : others ReceiverData.receiverId receiverId l =
      others ReceiverData.receiverId receiverId (receivers m uri))
    (ht : Tracks (lookup ReceiverData.receiverId receiverId l) (f (b uri receiverId))) :
    Agrees m' (b.change uri receiverId f) := by
  refine ⟨fun uri' => ?_, fun uri' receiverId' => ?_⟩
  · rw [hm]
    by_cases hu : uri' = uri
    · rw [hu, update_self]
      exact hd
    · rw [update_of_ne hu]
      exact h.1 uri'
  · rw [receiver, hm, Ledger.change]
    by_cases hu : uri' = uri
    · subst hu
      rw [update_self, update_self]
      by_cases hk : receiverId' = receiverId
      · rw [hk, update_self]
        exact ht
      · rw [update_of_ne hk, lookup_eq_of_others hk ho]
        exact h.2 uri' receiverId'
    · rw [update_of_ne hu, update_of_ne hu]
      exact h.2 uri' receiverId'

/-- **One call.** A proper call keeps the map in agreement with the ledger. -/
theorem agrees_step (m : SrcUriMap) (b : Ledger) (c : Call) (m' : SrcUriMap)
    (h : Agrees m b) (hc : Proper m c) (hs : step m c = some m') : Agrees m' (b.enter c) := by
  cases c with
  | add utcMillis uri receiverId r =>
    cases hs
    have hkey : ∀ d : ReceiverData,
        (d.readd utcMillis r.liveDvr r.recordingId).receiverId = d.receiverId :=
      fun d => receiverId_readd d utcMillis
    -- the name fits, so the new record is found under it
    have hnew : (newReceiver utcMillis receiverId r.liveDvr r.recordingId).receiverId
        = receiverId := CString.strncpy_of_le hc
    refine h.change (f := fun g => g.add r) (receivers_addReceiverId ..) ((h.1 uri).upsert hkey hnew)
      (others_upsert hkey hnew) ?_
    rw [lookup_upsert_self hkey hnew]
    exact (h.2 uri receiverId).add utcMillis receiverId r
  | remove uri receiverId r =>
    obtain ⟨left, hleft, hm⟩ := removeReceiverId_eq_some hs
    obtain ⟨hd, ho, hl⟩ := eraseWalk_spec (fun d => receiverId_deregister d) (h.1 uri) hleft
    refine h.change (f := fun g => g.remove r) hm hd ho ?_
    rw [hl]
    exact (h.2 uri receiverId).remove hc

/-- A call is undefined exactly when it erases the last receiver of a list. -/
theorem step_defined_iff {m : SrcUriMap} {b : Ledger} (h : Agrees m b) (c : Call) :
    (∃ m', step m c = some m') ↔ ¬ ErasesLast m c := by
  cases c with
  | add utcMillis uri receiverId r => exact iff_of_true ⟨_, rfl⟩ not_false
  | remove uri receiverId r =>
    rw [← Option.ne_none_iff_exists']
    exact not_congr (removeReceiverId_eq_none_iff.trans (eraseWalk_eq_none_iff (h.1 uri)))

theorem Agrees.faithful {m : SrcUriMap} {b : Ledger} (h : Agrees m b) : Faithful m b where
  present_iff uri receiverId := by
    have ht := h.2 uri receiverId
    rcases ho : receiver m uri receiverId with _ | d
    · rw [ho] at ht
      refine iff_of_false (fun hp => ?_) ht
      rw [Present, ho] at hp
      cases hp
    · rw [ho] at ht
      refine iff_of_true ?_ ht.active_of_some
      rw [Present, ho]
      rfl
  dvr_of_not_live uri receiverId d hd hl := by
    have ht := h.2 uri receiverId
    rw [Option.mem_def.mp hd] at ht
    exact ht.dvr_of_not_live hl
  removal_frame uri receiverId r m' hs := by
    obtain ⟨left, hleft, hm⟩ := removeReceiverId_eq_some hs
    obtain ⟨-, ho, -⟩ := eraseWalk_spec (fun d => receiverId_deregister d) (h.1 uri) hleft
    refine ⟨?_, fun uri' hu => ?_⟩
    · rw [hm, update_self]
      exact ho
    · rw [hm, update_of_ne hu]

/-- **The receiver lists follow the ledger.** In a run of proper calls every
state reached holds what the ledger says, and the run gets stuck only at a
removal that erases the last receiver of a list. -/
theorem receivers_follow_ledger {calls : List Call} (h : EachStep step Proper empty calls) :
    (∀ m, runFrom step empty calls = some m → Faithful m (ledger calls)) ∧
      ((∃ m, runFrom step empty calls = some m) ↔
        EachStep step (fun m c => ¬ ErasesLast m c) empty calls) := by
  refine ⟨fun m hm => (h.simulates agrees_step agrees_empty hm).faithful, ?_⟩
  have hinv : EachStep step (fun m c => (∃ b, Agrees m b) ∧ Proper m c) empty calls :=
    h.and_invariant (fun m c m' ⟨b, hb⟩ hc hs => ⟨_, agrees_step m b c m' hb hc hs⟩)
      ⟨_, agrees_empty⟩
  rw [EachStep.run_defined_iff]
  exact hinv.congr fun m c ⟨⟨b, hb⟩, _⟩ => step_defined_iff hb c

/-- Two receivers watch a source live; the one that does not record leaves. -/
def sharedSource : List Call :=
  [.add 0 (.ofBuffer [117]) (.ofBuffer [97]) (.dvr (.ofBuffer [1])),
   .add 0 (.ofBuffer [117]) (.ofBuffer [98]) (.live .live (by decide)),
   .add 0 (.ofBuffer [117]) (.ofBuffer [99]) (.live .tsb (by decide)),
   .remove (.ofBuffer [117]) (.ofBuffer [98]) (.live .liveTsb (by decide))]

theorem receivers_follow_ledger_sharedSource :
    ∃ m, runFrom step empty sharedSource = some m ∧ Faithful m (ledger sharedSource) := by
  have hrun : (runFrom step empty sharedSource).isSome = true := by decide
  obtain ⟨m, hm⟩ := Option.isSome_iff_exists.mp hrun
  exact ⟨m, hm, (receivers_follow_ledger (by decide)).1 m hm⟩

/-- A live receiver starts a recording and then stops viewing, while another
one is listed after it. -/
def recordThenLeave : List Call :=
  [.add 0 (.ofBuffer [117]) (.ofBuffer [97]) (.live .live (by decide)),
   .add 0 (.ofBuffer [117]) (.ofBuffer [98]) (.live .live (by decide)),
   .add 0 (.ofBuffer [117]) (.ofBuffer [97]) (.dvr (.ofBuffer [1])),
   .remove (.ofBuffer [117]) (.ofBuffer [97]) (.live .live (by decide))]

/-- The receiver that still records is dropped from the list. -/
theorem recordThenLeave_drops : ∃ m, runFrom step empty recordThenLeave = some m ∧
    ¬ Faithful m (ledger recordThenLeave) := by
  have hrun : (runFrom step empty recordThenLeave).map
      (fun m => decide (Present m (.ofBuffer [117]) (.ofBuffer [97]))) = some false := by
    decide
  obtain ⟨m, hm, habsent⟩ := Option.map_eq_some_iff.mp hrun
  refine ⟨m, hm, fun h => of_decide_eq_false habsent ((h.present_iff _ _).mpr (Or.inr ?_))⟩
  exact ⟨.ofBuffer [1], Or.inl rfl⟩

end Receivers

end MediaFramework
