import MediaFramework.Lib.Run
import Mathlib.Data.List.Basic

/-!
# Tuner reservations

`TunerReservationHelperImpl` sends a request with a new uuid and, if it is to be synchronous, waits
for a response. The response comes on another thread, the one that reads from the connection: it
looks for the helper whose last request has the uuid, and then sets two flags of that helper.

The calls of any number of helpers, and the reader, take turns step by step. What they share is not
guarded: the uuid and the flags of a helper are those of its last request, and the text of the last
message is a global. A uuid is the number of the call that made it.
-/

namespace MediaFramework

/-! ## Helpers, calls and responses -/

/-- What is asked of the reservation manager. -/
inductive TrhRequest where
  | reserveTunerForRecord (synchronous : Bool)
  /-- always asynchronous: `TunerReservationHelper` does not pass `synchronous` on -/
  | reserveTunerForLive
  | releaseTunerReservation
  | getAllTunerStates
  deriving DecidableEq

/-- The call waits for a response. -/
def TrhRequest.waits : TrhRequest → Bool
  | .reserveTunerForRecord synchronous => synchronous
  | .getAllTunerStates => true
  | _ => false

/-- A response, of the kind of the request whose uuid it carries. -/
structure TrhResponse where
  /-- `ResponseStatus::kOk` -/
  ok : Bool
  text : List UInt8
  deriving DecidableEq

/-- Where a call is. -/
inductive TrhPhase where
  /-- its uuid is the helper's -/
  | started
  /-- the flags are reset -/
  | ready
  /-- in the loop of `waitForResrvResponse` -/
  | waiting
  /-- out of it, and the mutex is released -/
  | left
  /-- `getAllTunerStates`, before the text is copied -/
  | answered
  | returned (ret : Bool) (output : List UInt8)
  deriving DecidableEq

/-- A call. -/
structure TrhCall where
  trh : ℕ
  request : TrhRequest
  phase : TrhPhase
  /-- `url_request_post` has reported success -/
  sent : Bool
  /-- the responses to it that have come while it is under way -/
  responses : List TrhResponse
  deriving DecidableEq

/-- `TunerReservationHelperImpl`. -/
structure TrhHelper where
  guid : Option ℕ
  resrvResponseRecieved : Bool
  reservationSuccess : Bool
  deriving DecidableEq

/-- The reader, between `getTRH` and `notifyResrvResponse`. -/
structure TrhMatched where
  trh : ℕ
  uuid : ℕ
  success : Bool
  deriving DecidableEq

/-- All of it but the event listener. -/
structure TrhState where
  helpers : ℕ → TrhHelper
  calls : List TrhCall
  /-- the text of the last message -/
  responseStr : List UInt8
  matched : Option TrhMatched

/-- The call is not over. -/
def TrhCall.underWay (c : TrhCall) : Bool :=
  match c.phase with
  | .returned _ _ => false
  | _ => true

/-- The flags were reset for the call, and it will look at them. -/
def TrhCall.looks (c : TrhCall) : Bool :=
  c.request.waits && match c.phase with
  | .ready => true
  | .waiting => true
  | .left => true
  | _ => false

/-! ## Steps -/

/-- What can happen next. -/
inductive TrhEvent where
  /-- a call: `uuid_generate` -/
  | begin (trh : ℕ) (request : TrhRequest)
  /-- the flags are reset -/
  | reset (call : ℕ)
  /-- up to ten times `url_request_post` -/
  | post (call : ℕ) (ok : Bool)
  /-- the loop of `waitForResrvResponse`, at its head -/
  | wake (call : ℕ)
  /-- `g_cond_timed_wait` has timed out -/
  | timeout (call : ℕ)
  /-- `waitForResrvResponse` returns -/
  | answer (call : ℕ)
  /-- `output = responseStr` -/
  | copy (call : ℕ)
  /-- a response to the request of a call, up to `getTRH` -/
  | respond (uuid : ℕ) (response : TrhResponse)
  /-- any other message -/
  | other (text : List UInt8)
  /-- `notifyResrvResponse` -/
  | notify
  deriving DecidableEq

namespace TrhState

/-- The flags are whatever they happen to be: nothing sets them first. -/
def start (received success : ℕ → Bool) : TrhState :=
  ⟨fun t => ⟨none, received t, success t⟩, [], [], none⟩

/-- A call goes on. -/
def setCall (s : TrhState) (i : ℕ) (c : TrhCall) : TrhState := { s with calls := s.calls.set i c }

def setHelper (s : TrhState) (t : ℕ) (h : TrhHelper) : TrhState :=
  { s with helpers := Function.update s.helpers t h }

/-- The first step of a call. -/
def beginCall (s : TrhState) (t : ℕ) (request : TrhRequest) : TrhState :=
  { s.setHelper t { s.helpers t with guid := some s.calls.length } with
    calls := s.calls ++ [⟨t, request, .started, false, []⟩] }

/-- The flags, as a request resets them: only `getAllTunerStates` resets both. -/
def resetFlags (request : TrhRequest) (h : TrhHelper) : TrhHelper :=
  { h with
    resrvResponseRecieved := false
    reservationSuccess := if request = .getAllTunerStates then false else h.reservationSuccess }

/-- A call is posted. -/
def postCall (c : TrhCall) (ok : Bool) : TrhCall :=
  { c with
    sent := ok
    phase := if ok && c.request.waits then .waiting else .returned ok [] }

/-- `waitForResrvResponse` returns the flag. -/
def answerCall (c : TrhCall) (ret : Bool) : TrhCall :=
  { c with phase := if ret = true ∧ c.request = .getAllTunerStates then .answered
      else .returned ret [] }

/-- The helper that is told of a response to a call: the responses to a release are looked up
otherwise, and set no flags. -/
def findTrh (s : TrhState) (uuid : ℕ) (c : TrhCall) (response : TrhResponse) : Option TrhMatched :=
  if c.request ≠ .releaseTunerReservation ∧ (s.helpers c.trh).guid = some uuid then
    some ⟨c.trh, uuid, response.ok⟩
  else none

/-- A response has come. -/
def heard (c : TrhCall) (response : TrhResponse) : TrhCall :=
  if c.underWay then { c with responses := c.responses ++ [response] } else c

/-- One step of one of the threads; `none` where it is not the thread's next one. -/
def step (s : TrhState) : TrhEvent → Option TrhState
  | .begin t request => some (s.beginCall t request)
  | .reset i => s.calls[i]?.bind fun c =>
    if c.phase = .started ∧ c.request ≠ .releaseTunerReservation then
      some ((s.setHelper c.trh (resetFlags c.request (s.helpers c.trh))).setCall i
        { c with phase := .ready })
    else none
  | .post i ok => s.calls[i]?.bind fun c =>
    if c.phase = .ready ∨ c.phase = .started ∧ c.request = .releaseTunerReservation then
      some (s.setCall i (postCall c ok))
    else none
  | .wake i => s.calls[i]?.bind fun c =>
    if c.phase = .waiting then
      some (if (s.helpers c.trh).resrvResponseRecieved then s.setCall i { c with phase := .left }
        else s)
    else none
  | .timeout i => s.calls[i]?.bind fun c =>
    if c.phase = .waiting then some (s.setCall i { c with phase := .left }) else none
  | .answer i => s.calls[i]?.bind fun c =>
    if c.phase = .left then some (s.setCall i (answerCall c (s.helpers c.trh).reservationSuccess))
    else none
  | .copy i => s.calls[i]?.bind fun c =>
    if c.phase = .answered then
      some (s.setCall i { c with phase := .returned true s.responseStr })
    else none
  | .respond uuid response => s.calls[uuid]?.bind fun c =>
    if s.matched = none ∧ c.sent = true then
      some { s.setCall uuid (heard c response) with
        responseStr := response.text
        matched := s.findTrh uuid c response }
    else none
  | .other text => if s.matched = none then some { s with responseStr := text } else none
  | .notify => s.matched.map fun m =>
    { s.setHelper m.trh { s.helpers m.trh with
        resrvResponseRecieved := true
        reservationSuccess := m.success } with
      matched := none }

end TrhState

/-! ## What a call should return -/

namespace TrhCall

/-- An OK response to its request has come. -/
def HasOk (c : TrhCall) : Prop := ∃ r ∈ c.responses, r.ok = true

/-- A response to its request with this text has come. -/
def HasText (c : TrhCall) (text : List UInt8) : Prop := ∃ r ∈ c.responses, r.text = text

/-- **Correct.** A call that has returned true was sent; if it waits, an OK response to it came while
it was under way; and the tuner states it returns are the text of a response to it. -/
def Correct (c : TrhCall) : Prop :=
  ∀ output, c.phase = .returned true output → c.sent = true ∧ (c.request.waits = true → c.HasOk) ∧
    (c.request = .getAllTunerStates → c.HasText output)

end TrhCall

namespace TrhState

/-- Every call that has returned is correct. -/
def Correct (s : TrhState) : Prop := ∀ (i : ℕ) (c : TrhCall), s.calls[i]? = some c → c.Correct

/-- The text of the last message is the one a call of `getAllTunerStates` is going to return. -/
def holdsText (s : TrhState) (c : TrhCall) : Bool :=
  c.request = .getAllTunerStates ∧
    (c.phase = .answered ∨ c.looks = true ∧ (s.helpers c.trh).reservationSuccess = true)

/-- No message comes between the response to a call of `getAllTunerStates` and its return, but
another response to it. -/
def KeepsText (s : TrhState) (uuid : Option ℕ) : Prop :=
  ∀ i < s.calls.length, ∀ c ∈ s.calls[i]?, s.holdsText c = true → uuid = some i

/-- What a step must be like: no reservation and no `getAllTunerStates` begins on a helper while a
call that waits is under way on it; when the flags are reset for a call that waits, the reader is not
about to set them for another one; a wait that nobody has answered does not time out while
`reservationSuccess` is left from an earlier request; and `KeepsText`. -/
def Orderly (s : TrhState) : TrhEvent → Prop
  | .begin t request => request ≠ .releaseTunerReservation →
      ∀ c ∈ s.calls, c.trh = t → c.request.waits = true → c.underWay = false
  | .reset i => ∀ c ∈ s.calls[i]?, c.request.waits = true →
      ∀ m ∈ s.matched, m.trh = c.trh → m.uuid = i
  | .timeout i => ∀ c ∈ s.calls[i]?, (s.helpers c.trh).resrvResponseRecieved = false →
      (s.helpers c.trh).reservationSuccess = false
  | .respond uuid _ => s.KeepsText (some uuid)
  | .other _ => s.KeepsText none
  | _ => True

instance (s : TrhState) (uuid : Option ℕ) : Decidable (s.KeepsText uuid) :=
  inferInstanceAs (Decidable (∀ i < s.calls.length, ∀ c ∈ s.calls[i]?, _ → _))

instance (s : TrhState) : ∀ e, Decidable (s.Orderly e)
  | .begin _ _ => inferInstanceAs (Decidable (_ → ∀ c ∈ s.calls, _ → _ → _))
  | .reset i => inferInstanceAs (Decidable (∀ c ∈ s.calls[i]?, _ → ∀ m ∈ s.matched, _ → _))
  | .timeout i => inferInstanceAs (Decidable (∀ c ∈ s.calls[i]?, _ → _))
  | .respond uuid _ => inferInstanceAs (Decidable (s.KeepsText (some uuid)))
  | .other _ => inferInstanceAs (Decidable (s.KeepsText none))
  | .post _ _ => isTrue trivial
  | .wake _ => isTrue trivial
  | .answer _ => isTrue trivial
  | .copy _ => isTrue trivial
  | .notify => isTrue trivial

end TrhState

/-! ## The invariant -/

namespace TrhState

variable {s s' : TrhState} {i j : ℕ} {c d : TrhCall}

/-- What is known of a call. -/
structure Sound (s : TrhState) (i : ℕ) (c : TrhCall) : Prop where
  returned : c.Correct
  sent : c.phase = .waiting ∨ c.phase = .left ∨ c.phase = .answered → c.sent = true
  asks : c.phase = .waiting ∨ c.phase = .left → c.request.waits = true
  answered : c.phase = .answered →
    c.request = .getAllTunerStates ∧ c.HasOk ∧ c.HasText s.responseStr
  /-- a flag that is set is set by a response to the call, if the call is going to believe it -/
  flagged : c.looks = true → (s.helpers c.trh).reservationSuccess = true →
    (c.request = .getAllTunerStates ∨ c.phase = .left ∨
      (s.helpers c.trh).resrvResponseRecieved = true) →
    c.HasOk ∧ (c.request = .getAllTunerStates → c.HasText s.responseStr)
  /-- the uuid of the helper is the call's, or a release came after it -/
  owner : c.request.waits = true → c.underWay = true → ∀ j, (s.helpers c.trh).guid = some j →
    j = i ∨ ∃ d, s.calls[j]? = some d ∧ d.request = .releaseTunerReservation
  /-- the reader is about to tell the helper of a response to the call, and of no other -/
  ours : c.request.waits = true → c.underWay = true → c.phase ≠ .started →
    ∀ m, s.matched = some m → m.trh = c.trh → m.uuid = i

/-- What is known of all of it. -/
structure Inv (s : TrhState) : Prop where
  sound : ∀ (i : ℕ) (c : TrhCall), s.calls[i]? = some c → s.Sound i c
  /-- on each helper one call at most is waiting, or going to -/
  one : ∀ (i j : ℕ) (c d : TrhCall), s.calls[i]? = some c → s.calls[j]? = some d → c.request.waits = true →
    d.request.waits = true → c.underWay = true → d.underWay = true → c.trh = d.trh → i = j
  /-- the response the reader has looked up a helper for -/
  held : ∀ m, s.matched = some m → ∃ c, s.calls[m.uuid]? = some c ∧ c.trh = m.trh ∧
    (c.underWay = true → ∃ r ∈ c.responses, r.ok = m.success ∧ r.text = s.responseStr)

theorem inv_start (received success : ℕ → Bool) : (start received success).Inv where
  sound := by
    intro i c h
    cases h
  one := by
    intro i j c d h
    cases h
  held := by
    intro m h
    cases h

/-- A call that looks at the flags waits, and is under way. -/
theorem waits_of_looks (h : c.looks = true) : c.request.waits = true ∧ c.underWay = true := by
  obtain ⟨hwaits, hphase⟩ := Bool.and_eq_true_iff.mp h
  refine ⟨hwaits, ?_⟩
  rw [TrhCall.underWay]
  cases hc : c.phase with
  | returned ret output =>
    rw [hc] at hphase
    cases hphase
  | _ => rfl

theorem started_of_looks (h : c.looks = true) : c.phase ≠ .started := by
  intro hc
  rw [TrhCall.looks, hc, Bool.and_false] at h
  cases h

/-- A call that is not touched. -/
theorem Sound.congr (h : s.Sound i c) (hhelper : s'.helpers c.trh = s.helpers c.trh)
    (htext : s'.responseStr = s.responseStr) (hmatched : s'.matched = s.matched)
    (hrelease : ∀ (j : ℕ) (d : TrhCall), s.calls[j]? = some d → d.request = .releaseTunerReservation →
      ∃ d', s'.calls[j]? = some d' ∧ d'.request = .releaseTunerReservation) : s'.Sound i c where
  returned := h.returned
  sent := h.sent
  asks := h.asks
  answered := by
    rw [htext]
    exact h.answered
  flagged := by
    rw [hhelper, htext]
    exact h.flagged
  owner := by
    intro hwaits hway j hguid
    rw [hhelper] at hguid
    rcases h.owner hwaits hway j hguid with rfl | ⟨d, hd, hrequest⟩
    · exact .inl rfl
    · exact .inr (hrelease j d hd hrequest)
  ours := by
    rw [hmatched]
    exact h.ours

/-- The calls, after one of them has gone on. -/
theorem getElem?_setCall (hi : s.calls[i]? = some c) (c' : TrhCall) :
    (s.setCall i c').calls[j]? = if i = j then some c' else s.calls[j]? := by
  obtain ⟨hlt, -⟩ := List.getElem?_eq_some_iff.mp hi
  rw [setCall, List.getElem?_set]
  by_cases h : i = j
  · rw [if_pos h, if_pos h, if_pos hlt]
  · rw [if_neg h, if_neg h]

/-- No request is changed. -/
theorem request_setCall (hi : s.calls[i]? = some c) {c' : TrhCall} (hc' : c'.request = c.request)
    (hd : s.calls[j]? = some d) :
    ∃ d', (s.setCall i c').calls[j]? = some d' ∧ d'.request = d.request := by
  rw [getElem?_setCall hi]
  by_cases h : i = j
  · subst h
    obtain rfl := Option.some.inj (hi.symm.trans hd)
    exact ⟨c', if_pos rfl, hc'⟩
  · exact ⟨d, (if_neg h).trans hd, rfl⟩

/-- **A call goes on by itself.** Helpers, text and reader stay as they are. -/
theorem Inv.setCall (hI : s.Inv) (hi : s.calls[i]? = some c) {c' : TrhCall} (htrh : c'.trh = c.trh)
    (hrequest : c'.request = c.request) (hresponses : c'.responses = c.responses)
    (hway : c'.underWay = true → c.underWay = true) (hsound : s.Sound i c → s.Sound i c') :
    (s.setCall i c').Inv where
  sound := by
    intro j d hj
    have hrelease : ∀ (j : ℕ) (d : TrhCall), s.calls[j]? = some d → d.request = .releaseTunerReservation →
        ∃ d', (s.setCall i c').calls[j]? = some d' ∧ d'.request = .releaseTunerReservation := by
      intro j d hd hr
      obtain ⟨d', hd', hr'⟩ := request_setCall hi hrequest hd
      exact ⟨d', hd', hr'.trans hr⟩
    rw [getElem?_setCall hi] at hj
    by_cases h : i = j
    · subst h
      rw [if_pos rfl] at hj
      cases hj
      exact (hsound (hI.sound i c hi)).congr rfl rfl rfl hrelease
    · rw [if_neg h] at hj
      exact (hI.sound j d hj).congr rfl rfl rfl hrelease
  one := by
    have hback : ∀ (j : ℕ) (d : TrhCall), (s.setCall i c').calls[j]? = some d → ∃ d', s.calls[j]? = some d' ∧
        d'.request = d.request ∧ d'.trh = d.trh ∧ (d.underWay = true → d'.underWay = true) := by
      intro j d hj
      rw [getElem?_setCall hi] at hj
      by_cases h : i = j
      · subst h
        rw [if_pos rfl] at hj
        cases hj
        exact ⟨c, hi, hrequest.symm, htrh.symm, hway⟩
      · rw [if_neg h] at hj
        exact ⟨d, hj, rfl, rfl, id⟩
    intro j k d e hj hk hd he hdway heway htrh'
    obtain ⟨d', hj', hdr, hdt, hdw⟩ := hback j d hj
    obtain ⟨e', hk', her, het, hew⟩ := hback k e hk
    exact hI.one j k d' e' hj' hk' (by rw [hdr]; exact hd) (by rw [her]; exact he) (hdw hdway)
      (hew heway) (by rw [hdt, het]; exact htrh')
  held := by
    intro m hm
    obtain ⟨d, hd, hdtrh, hdheld⟩ := hI.held m hm
    rw [getElem?_setCall hi]
    by_cases h : i = m.uuid
    · subst h
      obtain rfl := Option.some.inj (hi.symm.trans hd)
      refine ⟨c', if_pos rfl, htrh.trans hdtrh, fun hc' => ?_⟩
      rw [hresponses]
      exact hdheld (hway hc')
    · exact ⟨d, (if_neg h).trans hd, hdtrh, hdheld⟩

/-! ## The steps keep it -/

theorem Sound.post {ok : Bool} (h : s.Sound i c) (hway : c.underWay = true)
    (hstarted : c.request.waits = true → c.phase = .ready) : s.Sound i (postCall c ok) where
  returned := by
    intro output hphase
    rw [postCall] at hphase ⊢
    split_ifs at hphase with hwaits
    obtain ⟨rfl, -⟩ := TrhPhase.returned.inj hphase
    refine ⟨rfl, fun h => absurd h hwaits, fun hrequest => ?_⟩
    rw [hrequest] at hwaits
    exact absurd rfl hwaits
  sent := by
    intro hphase
    rw [postCall] at hphase ⊢
    split_ifs at hphase with hwaits
    · exact (Bool.and_eq_true_iff.mp hwaits).1
    · rcases hphase with hphase | hphase | hphase <;> cases hphase
  asks := by
    intro hphase
    rw [postCall] at hphase
    split_ifs at hphase with hwaits
    · exact (Bool.and_eq_true_iff.mp hwaits).2
    · rcases hphase with hphase | hphase <;> cases hphase
  answered := by
    intro hphase
    rw [postCall] at hphase
    split_ifs at hphase
  flagged := by
    intro hlooks hsuccess hreason
    obtain ⟨hwaits, hway'⟩ := waits_of_looks hlooks
    have hready := hstarted hwaits
    refine h.flagged ?_ hsuccess ?_
    · rw [TrhCall.looks, hready]
      exact Bool.and_eq_true_iff.mpr ⟨hwaits, rfl⟩
    · rcases hreason with hreason | hreason | hreason
      · exact .inl hreason
      · rw [postCall] at hreason
        split_ifs at hreason
      · exact .inr (.inr hreason)
  owner := fun hwaits _ => h.owner hwaits hway
  ours := by
    intro hwaits _ _
    refine h.ours hwaits hway ?_
    rw [hstarted hwaits]
    exact TrhPhase.noConfusion

/-- The loop is left: by a flag that is set, or with none of them set. -/
theorem Sound.left (h : s.Sound i c) (hphase : c.phase = .waiting)
    (hflags : (s.helpers c.trh).resrvResponseRecieved = false →
      (s.helpers c.trh).reservationSuccess = false) : s.Sound i { c with phase := .left } where
  returned := by
    intro output hleft
    cases hleft
  sent := fun _ => h.sent (.inl hphase)
  asks := fun _ => h.asks (.inl hphase)
  answered := by
    intro hleft
    cases hleft
  flagged := by
    intro _ hsuccess _
    refine h.flagged ?_ hsuccess (.inr (.inr ?_))
    · rw [TrhCall.looks, hphase]
      exact Bool.and_eq_true_iff.mpr ⟨h.asks (.inl hphase), rfl⟩
    · refine eq_true_of_ne_false fun hreceived => ?_
      rw [hflags hreceived] at hsuccess
      cases hsuccess
  owner := by
    refine fun hwaits _ => h.owner hwaits ?_
    rw [TrhCall.underWay, hphase]
  ours := by
    refine fun hwaits _ _ => h.ours hwaits ?_ ?_
    · rw [TrhCall.underWay, hphase]
    · rw [hphase]
      exact TrhPhase.noConfusion

theorem Sound.answer (h : s.Sound i c) (hphase : c.phase = .left) :
    s.Sound i (answerCall c (s.helpers c.trh).reservationSuccess) := by
  have hway : c.underWay = true := by rw [TrhCall.underWay, hphase]
  have hflagged : (s.helpers c.trh).reservationSuccess = true →
      c.HasOk ∧ (c.request = .getAllTunerStates → c.HasText s.responseStr) := by
    refine fun hsuccess => h.flagged ?_ hsuccess (.inr (.inl hphase))
    rw [TrhCall.looks, hphase]
    exact Bool.and_eq_true_iff.mpr ⟨h.asks (.inr hphase), rfl⟩
  refine ⟨?_, fun _ => h.sent (.inr (.inl hphase)), fun _ => h.asks (.inr hphase), ?_, ?_, fun hwaits _ => h.owner hwaits hway,
    fun hwaits _ _ => h.ours hwaits hway ?_⟩
  · intro output hreturned
    rw [answerCall] at hreturned
    split_ifs at hreturned with hstates
    obtain ⟨hsuccess, -⟩ := TrhPhase.returned.inj hreturned
    refine ⟨h.sent (.inr (.inl hphase)), fun _ => (hflagged hsuccess).1, fun hrequest => ?_⟩
    exact absurd ⟨hsuccess, hrequest⟩ hstates
  · intro hanswered
    rw [answerCall] at hanswered
    split_ifs at hanswered with hstates
    obtain ⟨hok, htext⟩ := hflagged hstates.1
    exact ⟨hstates.2, hok, htext hstates.2⟩
  · intro hlooks
    rw [TrhCall.looks, answerCall] at hlooks
    split_ifs at hlooks
    · rw [Bool.and_false] at hlooks
      cases hlooks
    · rw [Bool.and_false] at hlooks
      cases hlooks
  · rw [hphase]
    exact TrhPhase.noConfusion

theorem Sound.copy (h : s.Sound i c) (hphase : c.phase = .answered) :
    s.Sound i { c with phase := .returned true s.responseStr } := by
  obtain ⟨hrequest, hok, htext⟩ := h.answered hphase
  refine ⟨?_, ?_, ?_, ?_, ?_, ?_, ?_⟩
  · intro output hreturned
    obtain ⟨-, rfl⟩ := TrhPhase.returned.inj hreturned
    exact ⟨h.sent (.inr (.inr hphase)), fun _ => hok, fun _ => htext⟩
  · rintro (h | h | h) <;> cases h
  · rintro (h | h) <;> cases h
  · intro h
    cases h
  · intro hlooks
    rw [TrhCall.looks, Bool.and_false] at hlooks
    cases hlooks
  · intro _ hway
    cases hway
  · intro _ hway
    cases hway

/-- A helper's flags and uuid are changed, so that nothing is said of a call that is not true. -/
theorem Inv.setHelper (hI : s.Inv) {t : ℕ} {h : TrhHelper} (hguid : h.guid = (s.helpers t).guid)
    (hflags : ∀ (i : ℕ) (c : TrhCall), s.calls[i]? = some c → c.trh = t → c.looks = true →
      h.reservationSuccess = true →
      (c.request = .getAllTunerStates ∨ c.phase = .left ∨ h.resrvResponseRecieved = true) →
      c.HasOk ∧ (c.request = .getAllTunerStates → c.HasText s.responseStr)) :
    (s.setHelper t h).Inv where
  sound := by
    intro i c hi
    have hsound := hI.sound i c hi
    have hother : c.trh ≠ t → (s.setHelper t h).helpers c.trh = s.helpers c.trh :=
      fun hne => Function.update_of_ne hne _ _
    have hself : c.trh = t → (s.setHelper t h).helpers c.trh = h := by
      rintro rfl
      exact Function.update_self _ _ _
    refine ⟨hsound.returned, hsound.sent, hsound.asks, hsound.answered, ?_, ?_, hsound.ours⟩
    · by_cases ht : c.trh = t
      · rw [hself ht]
        exact hflags i c hi ht
      · rw [hother ht]
        exact hsound.flagged
    · by_cases ht : c.trh = t
      · rw [hself ht, hguid, ← ht]
        exact hsound.owner
      · rw [hother ht]
        exact hsound.owner
  one := hI.one
  held := hI.held

theorem Inv.reset (hI : s.Inv) (hi : s.calls[i]? = some c) (hphase : c.phase = .started)
    (hreader : c.request.waits = true → ∀ m, s.matched = some m → m.trh = c.trh → m.uuid = i) :
    ((s.setHelper c.trh (resetFlags c.request (s.helpers c.trh))).setCall i
      { c with phase := .ready }).Inv := by
  have hway : c.underWay = true := by rw [TrhCall.underWay, hphase]
  -- no call comes to believe a flag that is reset
  have hreset : (s.setHelper c.trh (resetFlags c.request (s.helpers c.trh))).Inv := by
    refine hI.setHelper rfl fun j d hj hd hlooks hsuccess hreason => ?_
    have hbefore : (s.helpers d.trh).reservationSuccess = true := by
      rw [resetFlags] at hsuccess
      split_ifs at hsuccess
      rw [hd]
      exact hsuccess
    refine (hI.sound j d hj).flagged hlooks hbefore ?_
    rcases hreason with hreason | hreason | hreason
    · exact .inl hreason
    · exact .inr (.inl hreason)
    · cases hreason
  refine hreset.setCall hi rfl rfl rfl (fun _ => hway) fun h => ?_
  have hself : (s.setHelper c.trh (resetFlags c.request (s.helpers c.trh))).helpers c.trh =
      resetFlags c.request (s.helpers c.trh) := Function.update_self _ _ _
  refine ⟨?_, ?_, ?_, ?_, ?_, fun hwaits _ => h.owner hwaits hway, fun hwaits _ _ => hreader hwaits⟩
  · intro output hreturned
    cases hreturned
  · rintro (h | h | h) <;> cases h
  · rintro (h | h) <;> cases h
  · intro h
    cases h
  · intro _ hsuccess hreason
    rw [hself, resetFlags] at hsuccess hreason
    rcases hreason with hreason | hreason | hreason
    · rw [if_pos hreason] at hsuccess
      cases hsuccess
    · cases hreason
    · cases hreason

theorem Inv.notify {m : TrhMatched} (hI : s.Inv) (hm : s.matched = some m) :
    ({ s.setHelper m.trh { s.helpers m.trh with
        resrvResponseRecieved := true
        reservationSuccess := m.success } with
      matched := none } : TrhState).Inv := by
  have hset : (s.setHelper m.trh { s.helpers m.trh with
      resrvResponseRecieved := true
      reservationSuccess := m.success }).Inv := by
    refine hI.setHelper rfl fun i c hi htrh hlooks hsuccess _ => ?_
    -- the response that was looked up is one to this call
    obtain ⟨hwaits, hway⟩ := waits_of_looks hlooks
    have huuid := (hI.sound i c hi).ours hwaits hway (started_of_looks hlooks) m hm htrh.symm
    obtain ⟨d, hd, -, hheld⟩ := hI.held m hm
    rw [huuid] at hd
    obtain rfl := Option.some.inj (hi.symm.trans hd)
    obtain ⟨r, hr, hok, htext⟩ := hheld hway
    exact ⟨⟨r, hr, hok.trans hsuccess⟩, fun _ => ⟨r, hr, htext⟩⟩
  refine ⟨fun i c hi => ?_, hset.one, fun m hm => ?_⟩
  · have h := hset.sound i c hi
    exact ⟨h.returned, h.sent, h.asks, h.answered, h.flagged, h.owner, fun _ _ _ m hm => by cases hm⟩
  · cases hm

/-- A call whose text is held looks out for it. -/
theorem holdsText_of_answered (h : s.Sound i c) (hphase : c.phase = .answered) :
    s.holdsText c = true :=
  decide_eq_true ⟨(h.answered hphase).1, .inl hphase⟩

theorem holdsText_of_flagged (hrequest : c.request = .getAllTunerStates) (hlooks : c.looks = true)
    (hsuccess : (s.helpers c.trh).reservationSuccess = true) : s.holdsText c = true :=
  decide_eq_true ⟨hrequest, .inr ⟨hlooks, hsuccess⟩⟩

theorem KeepsText.eq {uuid : Option ℕ} (h : s.KeepsText uuid) (hi : s.calls[i]? = some c)
    (hc : s.holdsText c = true) : uuid = some i := by
  obtain ⟨hlt, -⟩ := List.getElem?_eq_some_iff.mp hi
  exact h i hlt c hi hc

theorem Inv.other {text : List UInt8} (hI : s.Inv) (hm : s.matched = none) (h : s.KeepsText none) :
    ({ s with responseStr := text } : TrhState).Inv := by
  refine ⟨fun i c hi => ?_, hI.one, fun m hm' => ?_⟩
  · have hsound := hI.sound i c hi
    refine ⟨hsound.returned, hsound.sent, hsound.asks, fun hphase => ?_,
      fun hlooks hsuccess hreason => ⟨(hsound.flagged hlooks hsuccess hreason).1, fun hrequest => ?_⟩,
      hsound.owner, hsound.ours⟩
    · cases h.eq hi (holdsText_of_answered hsound hphase)
    · cases h.eq hi (holdsText_of_flagged hrequest hlooks hsuccess)
  · cases hm.symm.trans hm'

theorem Inv.beginCall {t : ℕ} {request : TrhRequest} (hI : s.Inv)
    (h : s.Orderly (.begin t request)) : (s.beginCall t request).Inv := by
  have hnew : ∀ (j : ℕ) (d : TrhCall), (s.beginCall t request).calls[j]? = some d →
      s.calls[j]? = some d ∨ j = s.calls.length ∧ d = ⟨t, request, .started, false, []⟩ := by
    intro j d hj
    rcases Nat.lt_or_ge j s.calls.length with hlt | hge
    · exact .inl ((List.getElem?_append_left hlt).symm.trans hj)
    · have hj' := (List.getElem?_append_right hge).symm.trans hj
      rcases hk : j - s.calls.length with _ | k
      · rw [hk] at hj'
        exact .inr ⟨by omega, (Option.some.inj hj').symm⟩
      · rw [hk] at hj'
        cases hj'
  have hold : ∀ (j : ℕ) (d : TrhCall), s.calls[j]? = some d →
      (s.beginCall t request).calls[j]? = some d := by
    intro j d hj
    obtain ⟨hlt, -⟩ := List.getElem?_eq_some_iff.mp hj
    exact (List.getElem?_append_left hlt).trans hj
  have hlast : (s.beginCall t request).calls[s.calls.length]? =
      some ⟨t, request, .started, false, []⟩ := by
    refine (List.getElem?_append_right (Nat.le_refl _)).trans ?_
    rw [Nat.sub_self]
    rfl
  refine ⟨fun j d hj => ?_, fun i j c d hi hj hcw hdw hcu hdu htrh => ?_, fun m hm => ?_⟩
  · rcases hnew j d hj with hj | ⟨rfl, rfl⟩
    · have hsound := hI.sound j d hj
      have hflags : ((s.beginCall t request).helpers d.trh).reservationSuccess =
            (s.helpers d.trh).reservationSuccess ∧
          ((s.beginCall t request).helpers d.trh).resrvResponseRecieved =
            (s.helpers d.trh).resrvResponseRecieved := by
        by_cases ht : d.trh = t
        · have : (s.beginCall t request).helpers d.trh =
              { s.helpers t with guid := some s.calls.length } := by
            rw [ht]
            exact Function.update_self _ _ _
          rw [this, ht]
          exact ⟨rfl, rfl⟩
        · have : (s.beginCall t request).helpers d.trh = s.helpers d.trh :=
            Function.update_of_ne ht _ _
          rw [this]
          exact ⟨rfl, rfl⟩
      refine ⟨hsound.returned, hsound.sent, hsound.asks, hsound.answered, ?_, ?_, hsound.ours⟩
      · rw [hflags.1, hflags.2]
        exact hsound.flagged
      · intro hwaits hway k hguid
        by_cases ht : d.trh = t
        · have hself : (s.beginCall t request).helpers d.trh =
              { s.helpers t with guid := some s.calls.length } := by
            rw [ht]
            exact Function.update_self _ _ _
          rw [hself] at hguid
          cases hguid
          refine .inr ⟨_, hlast, ?_⟩
          -- only a release may begin now
          refine Decidable.byContradiction fun hne => ?_
          have := h hne d (List.mem_of_getElem? hj) ht hwaits
          exact absurd (hway.symm.trans this) (by decide)
        · have hsame : (s.beginCall t request).helpers d.trh = s.helpers d.trh :=
            Function.update_of_ne ht _ _
          rw [hsame] at hguid
          rcases hsound.owner hwaits hway k hguid with rfl | ⟨e, he, hrequest⟩
          · exact .inl rfl
          · exact .inr ⟨e, hold k e he, hrequest⟩
    · refine ⟨?_, ?_, ?_, ?_, ?_, ?_, fun _ _ hphase => absurd rfl hphase⟩
      · intro output hreturned
        cases hreturned
      · rintro (h | h | h) <;> cases h
      · rintro (h | h) <;> cases h
      · intro h
        cases h
      · intro hlooks
        exact absurd rfl (started_of_looks hlooks)
      · intro _ _ k hguid
        have hself : (s.beginCall t request).helpers t =
            { s.helpers t with guid := some s.calls.length } := Function.update_self _ _ _
        rw [hself] at hguid
        exact .inl (Option.some.inj hguid).symm
  · -- a call that begins and waits is the only one
    have halone : ∀ e ∈ s.calls, e.trh = t → e.request.waits = true → e.underWay = true →
        request.waits = true → False := by
      intro e he het hew heu hwaits
      have hne : request ≠ .releaseTunerReservation := by
        rintro rfl
        cases hwaits
      exact absurd (heu.symm.trans (h hne e he het hew)) (by decide)
    rcases hnew i c hi with hi | ⟨rfl, rfl⟩
    · rcases hnew j d hj with hj | ⟨rfl, rfl⟩
      · exact hI.one i j c d hi hj hcw hdw hcu hdu htrh
      · exact (halone c (List.mem_of_getElem? hi) htrh hcw hcu hdw).elim
    · rcases hnew j d hj with hj | ⟨rfl, rfl⟩
      · exact (halone d (List.mem_of_getElem? hj) htrh.symm hdw hdu hcw).elim
      · rfl
  · obtain ⟨c, hc, hrest⟩ := hI.held m hm
    exact ⟨c, hold m.uuid c hc, hrest⟩

/-! Hearing a response leaves everything of a call but the responses. -/

theorem heard_eq (c : TrhCall) (r : TrhResponse) :
    ∃ more, heard c r = { c with responses := c.responses ++ more } := by
  rw [heard]
  split_ifs
  · exact ⟨[r], rfl⟩
  · refine ⟨[], ?_⟩
    rw [List.append_nil]

theorem mem_heard {r : TrhResponse} (hway : c.underWay = true) : r ∈ (heard c r).responses := by
  rw [heard, if_pos hway]
  exact List.mem_append_right _ (List.mem_singleton_self r)

theorem Inv.respond {u : ℕ} {r : TrhResponse} (hI : s.Inv) (hu : s.calls[u]? = some c)
    (h : s.KeepsText (some u)) :
    ({ s.setCall u (heard c r) with
        responseStr := r.text
        matched := s.findTrh u c r } : TrhState).Inv := by
  obtain ⟨more, hheard⟩ := heard_eq c r
  have hback : ∀ (j : ℕ) (d : TrhCall), (s.setCall u (heard c r)).calls[j]? = some d →
      ∃ d', s.calls[j]? = some d' ∧ (∃ more, d = { d' with responses := d'.responses ++ more }) ∧
        (j = u → d'.underWay = true → r ∈ d.responses) := by
    intro j d hj
    rw [getElem?_setCall hu] at hj
    by_cases hju : u = j
    · subst hju
      rw [if_pos rfl] at hj
      cases hj
      exact ⟨c, hu, ⟨more, hheard⟩, fun _ => mem_heard⟩
    · rw [if_neg hju] at hj
      exact ⟨d, hj, ⟨[], by rw [List.append_nil]⟩, fun h => absurd h.symm hju⟩
  refine ⟨fun j d hj => ?_, fun i j d e hi hj hd he hdu heu htrh => ?_, fun m hm => ?_⟩
  · obtain ⟨d, hd, ⟨more', rfl⟩, hmem⟩ := hback j d hj
    have hsound := hI.sound j d hd
    have hok : d.HasOk → TrhCall.HasOk { d with responses := d.responses ++ more' } :=
      fun ⟨r, hr, hok⟩ => ⟨r, List.mem_append_left _ hr, hok⟩
    have htext : ∀ {text : List UInt8}, d.HasText text →
        TrhCall.HasText { d with responses := d.responses ++ more' } text :=
      fun ⟨r, hr, htext⟩ => ⟨r, List.mem_append_left _ hr, htext⟩
    refine ⟨fun output hphase => ?_, hsound.sent, hsound.asks, fun hphase => ?_,
      fun hlooks hsuccess hreason => ?_, fun hwaits hway k hguid => ?_,
      fun hwaits hway hphase m hm hmtrh => ?_⟩
    · obtain ⟨hsent, h₁, h₂⟩ := hsound.returned output hphase
      exact ⟨hsent, fun hwaits => hok (h₁ hwaits), fun hrequest => htext (h₂ hrequest)⟩
    · obtain ⟨hrequest, hhas, -⟩ := hsound.answered hphase
      obtain rfl := Option.some.inj (h.eq hd (holdsText_of_answered hsound hphase))
      refine ⟨hrequest, hok hhas, r, hmem rfl ?_, rfl⟩
      have hphase' : d.phase = .answered := hphase
      rw [TrhCall.underWay, hphase']
    · have hlooks' : d.looks = true := hlooks
      refine ⟨hok (hsound.flagged hlooks' hsuccess hreason).1, fun hrequest => ?_⟩
      obtain rfl := Option.some.inj (h.eq hd (holdsText_of_flagged hrequest hlooks' hsuccess))
      exact ⟨r, hmem rfl (waits_of_looks hlooks').2, rfl⟩
    · rcases hsound.owner hwaits hway k hguid with rfl | ⟨e, he, hrequest⟩
      · exact .inl rfl
      · have hsame : (heard c r).request = c.request := by rw [hheard]
        obtain ⟨e', he', hrequest'⟩ := request_setCall hu hsame he
        exact .inr ⟨e', he', hrequest'.trans hrequest⟩
    · -- the helper was found by its uuid, so the response is to its call
      have hfound : s.findTrh u c r = some m := hm
      rw [findTrh] at hfound
      split_ifs at hfound with hguid
      cases hfound
      have hmtrh' : c.trh = d.trh := hmtrh
      rw [hmtrh'] at hguid
      rcases hsound.owner hwaits hway u hguid.2 with rfl | ⟨e, he, hrequest⟩
      · rfl
      · obtain rfl := Option.some.inj (hu.symm.trans he)
        exact absurd hrequest hguid.1
  · obtain ⟨d, hd', ⟨more', rfl⟩, -⟩ := hback i d hi
    obtain ⟨e, he', ⟨more'', rfl⟩, -⟩ := hback j e hj
    exact hI.one i j d e hd' he' hd he hdu heu htrh
  · have hfound : s.findTrh u c r = some m := hm
    rw [findTrh] at hfound
    split_ifs at hfound with hguid
    cases hfound
    refine ⟨heard c r, ?_, by rw [hheard], fun hway => ⟨r, mem_heard ?_, rfl, rfl⟩⟩
    · exact (getElem?_setCall hu _).trans (if_pos rfl)
    · rw [hheard] at hway
      exact hway

/-- **One step.** -/
theorem Inv.step {e : TrhEvent} (hI : s.Inv) (h : s.Orderly e) (hs : s.step e = some s') :
    s'.Inv := by
  cases e with
  | begin t request =>
    cases hs
    exact hI.beginCall h
  | reset i =>
    obtain ⟨c, hi, hs⟩ := Option.bind_eq_some_iff.mp hs
    split_ifs at hs with hphase
    cases hs
    exact hI.reset hi hphase.1 fun hwaits m hm => h c hi hwaits m hm
  | post i ok =>
    obtain ⟨c, hi, hs⟩ := Option.bind_eq_some_iff.mp hs
    split_ifs at hs with hphase
    cases hs
    have hway : c.underWay = true := by
      rw [TrhCall.underWay]
      rcases hphase with h | ⟨h, -⟩ <;> rw [h]
    refine hI.setCall hi rfl rfl rfl (fun _ => hway) fun hsound => hsound.post hway fun hwaits => ?_
    rcases hphase with hphase | ⟨-, hrequest⟩
    · exact hphase
    · rw [hrequest] at hwaits
      cases hwaits
  | wake i =>
    obtain ⟨c, hi, hs⟩ := Option.bind_eq_some_iff.mp hs
    split_ifs at hs with hphase hreceived
    · cases hs
      refine hI.setCall hi rfl rfl rfl (fun _ => ?_) fun hsound => hsound.left hphase fun hnot => ?_
      · rw [TrhCall.underWay, hphase]
      · exact absurd (hreceived.symm.trans hnot) (by decide)
    · cases hs
      exact hI
  | timeout i =>
    obtain ⟨c, hi, hs⟩ := Option.bind_eq_some_iff.mp hs
    split_ifs at hs with hphase
    cases hs
    refine hI.setCall hi rfl rfl rfl (fun _ => ?_) fun hsound => hsound.left hphase (h c hi)
    rw [TrhCall.underWay, hphase]
  | answer i =>
    obtain ⟨c, hi, hs⟩ := Option.bind_eq_some_iff.mp hs
    split_ifs at hs with hphase
    cases hs
    refine hI.setCall hi rfl rfl rfl (fun _ => ?_) fun hsound => hsound.answer hphase
    rw [TrhCall.underWay, hphase]
  | copy i =>
    obtain ⟨c, hi, hs⟩ := Option.bind_eq_some_iff.mp hs
    split_ifs at hs with hphase
    cases hs
    refine hI.setCall hi rfl rfl rfl (fun _ => ?_) fun hsound => hsound.copy hphase
    rw [TrhCall.underWay, hphase]
  | respond u r =>
    obtain ⟨c, hu, hs⟩ := Option.bind_eq_some_iff.mp hs
    split_ifs at hs
    cases hs
    exact hI.respond hu h
  | other text =>
    rw [TrhState.step] at hs
    split_ifs at hs with hm
    cases hs
    exact hI.other hm h
  | notify =>
    obtain ⟨m, hm, rfl⟩ := Option.map_eq_some_iff.mp hs
    exact hI.notify hm

/-- **The calls.** In a run whose steps are orderly every call that returns is correct, whatever the
flags were at first. -/
theorem correct_of_orderly (received success : ℕ → Bool) (events : List TrhEvent) (t : TrhState)
    (h : EachStep step Orderly (start received success) events)
    (hrun : runFrom step (start received success) events = some t) : t.Correct := by
  have hI : t.Inv := h.invariant (fun _ _ _ hI h hs => hI.step h hs) (inv_start received success) hrun
  exact fun i c hi => (hI.sound i c hi).returned

/-- A reservation that is granted. -/
def granted (t call : ℕ) : List TrhEvent :=
  [.begin t (.reserveTunerForRecord true), .reset call, .post call true, .respond call ⟨true, [0x4F]⟩,
    .notify, .wake call, .answer call]

/-- A reservation and then the tuner states, each answered. -/
theorem correct_of_orderly_answered : ∃ t : TrhState,
    runFrom step (start (fun _ => false) fun _ => true) (granted 0 0 ++
      [.begin 0 .getAllTunerStates, .reset 1, .post 1 true, .respond 1 ⟨true, [0x41]⟩, .notify,
        .wake 1, .answer 1, .copy 1]) = some t ∧ t.Correct := by
  obtain ⟨t, ht⟩ := Option.isSome_iff_exists.mp (show (runFrom step
    (start (fun _ => false) fun _ => true) (granted 0 0 ++
      [.begin 0 .getAllTunerStates, .reset 1, .post 1 true, .respond 1 ⟨true, [0x41]⟩, .notify,
        .wake 1, .answer 1, .copy 1])).isSome = true by decide +kernel)
  exact ⟨t, ht, correct_of_orderly _ _ _ t (by decide +kernel) ht⟩

/-- After a reservation that is granted, one that times out returns true. -/
theorem not_correct_staleFlag : ¬ ∀ (received success : ℕ → Bool) (events : List TrhEvent)
    (t : TrhState), runFrom step (start received success) events = some t → t.Correct := by
  intro h
  obtain ⟨t, ht, hcalls⟩ : ∃ t, runFrom step (start (fun _ => false) fun _ => false)
      (granted 0 0 ++ [.begin 0 (.reserveTunerForRecord true), .reset 1, .post 1 true, .timeout 1,
        .answer 1]) = some t ∧
      t.calls[1]? = some ⟨0, .reserveTunerForRecord true, .returned true [], true, []⟩ :=
    Option.map_eq_some_iff.mp (by decide +kernel)
  obtain ⟨-, hok, -⟩ := h _ _ _ t ht 1 _ hcalls [] rfl
  obtain ⟨r, hr, -⟩ := hok rfl
  cases hr

end TrhState

end MediaFramework
