import MediaFramework.Lib.Run
import MediaFramework.Lib.Tiling

/-!
# The byte-range download (`RBIHTTPInsertSource::run`)

With byte ranges enabled an ad is fetched by a sequence of requests on one curl
handle. The first asks for the first 8 KB, to learn the size of the file from
the `Content-Range` header of the reply; the following ones ask for what is left
up to the first multiple of `BYTE_RANGE_SPLIT`, then for one split each, and the
last one for the remainder. A refused connection is tried again up to twice, and
the first request may be redirected once, to a fresh handle.

`step` is one pass of the loop's body under one reply of curl; a run that ends
with the loop's condition false has finished without breaking out. The size in
the header goes through `atoi`, which is defined below 2^31 only, so a reply
carries a size of that range, and no counter of the loop wraps.

The main result says for which sizes and replies the ranges of the successful
requests tile the file. They do not where the file is shorter than one split or
a whole number of splits (the last request is then malformed, or repeats the one
before it), nor where the redirect arrives on the second retry (the fresh handle
is then used without a range).
-/

namespace MediaFramework

/-- `BYTE_RANGE_SPLIT`. -/
def byteRangeSplit : ℕ := 7 * 47 * 4096

/-- `CURLE_COULDNT_CONNECT_RETRY_COUNT`. -/
def curleCouldntConnectRetryCount : ℕ := 2

namespace ByteRange

/-- The state of the loop. -/
structure LoopState where
  iLoop : ℕ
  multipleIntervals : ℕ
  startRange : ℕ
  /-- `byteRange`: first and last byte asked for; `none` for the initial `"NULL"` -/
  byteRange : Option (ℕ × ℕ)
  curlErrRetryCount : ℕ
  reDirect : Bool
  fileSize : ℕ
  /-- `CURLOPT_RANGE` of the current handle, if it was set -/
  curlRange : Option (ℕ × ℕ)
  /-- the ranges the successful requests were made with, in order -/
  fetched : List (Option (ℕ × ℕ))
  deriving DecidableEq

/-- The state before the loop. -/
def LoopState.init : LoopState where
  iLoop := 0
  multipleIntervals := 1
  startRange := 0
  byteRange := none
  curlErrRetryCount := 0
  reDirect := false
  fileSize := 0
  curlRange := none
  fetched := []

/-- What `curl_easy_perform` comes back with. -/
inductive Reply : Type where
  /-- `CURLE_OK`; the file size `atoi` finds in the `Content-Range` header, 0 without one -/
  | ok (contentRange : Fin 0x80000000)
  /-- `CURLE_OK` with response code 302 and a redirect URL -/
  | redirect
  /-- `CURLE_COULDNT_CONNECT` -/
  | couldntConnect
  /-- any other error -/
  | error
  deriving DecidableEq

/-- The range to ask for, set on the handle unless both retries are used up. -/
def setRange (s : LoopState) : LoopState :=
  if s.curlErrRetryCount < curleCouldntConnectRetryCount then
    let s :=
      if s.iLoop < s.multipleIntervals then
        if s.iLoop = 0 then
          { s with byteRange := some (s.startRange, 8192 - 1) }
        else if s.iLoop = 1 then
          { s with startRange := 0, byteRange := some (8192, 0 + byteRangeSplit - 1) }
        else
          { s with byteRange := some (s.startRange, s.startRange + byteRangeSplit - 1) }
      else if s.iLoop = s.multipleIntervals then
        if s.fileSize % byteRangeSplit ≠ 0 then
          { s with byteRange := some (s.startRange, s.fileSize - 1) }
        else s
      else s
    { s with curlRange := s.byteRange }
  else s

/-- The end of the body after a successful request. -/
def advance (s : LoopState) : LoopState :=
  { s with
    startRange := s.startRange + byteRangeSplit
    curlErrRetryCount := 0
    iLoop := s.iLoop + 1
    fetched := s.fetched ++ [s.curlRange] }

/-- The number of requests after the first one. -/
def intervals (fileSize : ℕ) : ℕ :=
  (if fileSize ≥ byteRangeSplit then fileSize / byteRangeSplit else 0) + 1

/-- What the body does with curl's reply; `none` where it breaks out. -/
def handle (s : LoopState) : Reply → Option LoopState
  | .couldntConnect =>
    if s.curlErrRetryCount = curleCouldntConnectRetryCount then none
    else some { s with curlErrRetryCount := s.curlErrRetryCount + 1 }
  | .error => none
  | .redirect =>
    if s.iLoop = 0 then
      if s.reDirect then none
      -- a new handle, with no range on it; the retry count is kept
      else some { s with curlRange := none, startRange := 0, reDirect := true }
    else some (advance s)
  | .ok contentRange =>
    if s.iLoop = 0 then
      if contentRange.val = 0 then none
      else some (advance { s with
        fileSize := contentRange, multipleIntervals := intervals contentRange })
    else some (advance s)

/-- One pass of the loop; `none` where the loop is over or breaks out. -/
def step (s : LoopState) (r : Reply) : Option LoopState :=
  if s.iLoop ≤ s.multipleIntervals then handle (setRange s) r else none

/-- The loop has ended by its condition. -/
def Finished (s : LoopState) : Prop := s.multipleIntervals < s.iLoop

instance (s : LoopState) : Decidable (Finished s) := inferInstanceAs (Decidable (_ < _))

/-- The file size the replies report: that of the first successful one. -/
def reportedSize : List Reply → ℕ
  | [] => 0
  | .ok contentRange :: _ => contentRange
  | _ :: rs => reportedSize rs

/-- The successful requests fetched the whole file: each carried a range, and
the ranges tile it. -/
def FetchedWhole (fetched : List (Option (ℕ × ℕ))) (fileSize : ℕ) : Prop :=
  ∃ ranges : List (ℕ × ℕ), fetched = ranges.map some ∧ Tiles 0 ranges fileSize

/-! ## The ranges asked for -/

/-- The range of the `i`-th successful request after the first one. -/
def rangeAt (fileSize i : ℕ) : ℕ × ℕ :=
  if i < intervals fileSize then
    if i = 1 then (8192, byteRangeSplit - 1)
    else ((i - 1) * byteRangeSplit, (i - 1) * byteRangeSplit + byteRangeSplit - 1)
  else if fileSize < byteRangeSplit then (byteRangeSplit, fileSize - 1)
  else if fileSize % byteRangeSplit ≠ 0 then
    ((i - 1) * byteRangeSplit, fileSize - 1)
  -- no remainder: the string of the request before is still there
  else if i = 2 then (8192, byteRangeSplit - 1)
  else ((i - 2) * byteRangeSplit, (i - 2) * byteRangeSplit + byteRangeSplit - 1)

theorem byteRangeSplit_gt : 8192 < byteRangeSplit := by decide

variable {fileSize : ℕ}

theorem intervals_of_lt (h : fileSize < byteRangeSplit) :
    intervals fileSize = 1 := by
  rw [intervals, if_neg (Nat.not_le.mpr h)]

theorem intervals_of_ge (h : byteRangeSplit ≤ fileSize) :
    intervals fileSize = fileSize / byteRangeSplit + 1 := by
  rw [intervals, if_pos h]

theorem two_le_intervals (h : byteRangeSplit ≤ fileSize) :
    2 ≤ intervals fileSize := by
  have hS := byteRangeSplit_gt
  have := Nat.div_pos h (by omega)
  rw [intervals_of_ge h]
  omega

theorem rangeAt_short (h : fileSize < byteRangeSplit) :
    rangeAt fileSize 1 = (byteRangeSplit, fileSize - 1) := by
  rw [rangeAt, intervals_of_lt h, if_neg (Nat.lt_irrefl 1), if_pos h]

theorem rangeAt_inner {fileSize i : ℕ} (h₁ : 1 < i) (h : i < intervals fileSize) :
    rangeAt fileSize i =
      ((i - 1) * byteRangeSplit, (i - 1) * byteRangeSplit + byteRangeSplit - 1) := by
  rw [rangeAt, if_pos h, if_neg (by omega)]

theorem rangeAt_one (h : 1 < intervals fileSize) :
    rangeAt fileSize 1 = (8192, byteRangeSplit - 1) := by
  rw [rangeAt, if_pos h, if_pos rfl]

theorem rangeAt_last (h : byteRangeSplit ≤ fileSize)
    (hmod : fileSize % byteRangeSplit ≠ 0) :
    rangeAt fileSize (intervals fileSize) =
      ((intervals fileSize - 1) * byteRangeSplit, fileSize - 1) := by
  rw [rangeAt, if_neg (Nat.lt_irrefl _), if_neg (Nat.not_lt.mpr h), if_pos hmod]

/-- Without a remainder the last request repeats the one before it. -/
theorem rangeAt_repeat (h : byteRangeSplit ≤ fileSize)
    (hmod : fileSize % byteRangeSplit = 0) :
    rangeAt fileSize (intervals fileSize) = rangeAt fileSize (intervals fileSize - 1) := by
  have h2 := two_le_intervals h
  rw [rangeAt, if_neg (Nat.lt_irrefl _), if_neg (Nat.not_lt.mpr h), if_neg (not_not.mpr hmod)]
  by_cases hi : intervals fileSize = 2
  · rw [if_pos hi, hi]
    exact (rangeAt_one (by omega)).symm
  · rw [if_neg hi, rangeAt_inner (by omega) (by omega)]
    rfl

/-! ## The loop after the first reply -/

/-- The state between two passes once the size is known: the ranges fetched so
far, and what the next request will be made with. -/
structure Tail (s : LoopState) (fileSize : ℕ) (first : Option (ℕ × ℕ)) : Prop where
  fileSize_pos : 0 < fileSize
  fileSize_eq : s.fileSize = fileSize
  intervals_eq : s.multipleIntervals = intervals fileSize
  iLoop_pos : 1 ≤ s.iLoop
  iLoop_le : s.iLoop ≤ intervals fileSize + 1
  retry_le : s.curlErrRetryCount ≤ 2
  /-- a short file: the split is added although nothing of that length was asked for -/
  start_short : intervals fileSize = 1 → s.iLoop = 1 → s.startRange = byteRangeSplit
  start_eq : 1 < intervals fileSize → 1 < s.iLoop ∨ 0 < s.curlErrRetryCount →
    s.startRange = (s.iLoop - 1) * byteRangeSplit
  /-- a request that is tried again has its range on the handle -/
  retried : 0 < s.curlErrRetryCount → s.byteRange = some (rangeAt fileSize s.iLoop) ∧
    s.curlRange = some (rangeAt fileSize s.iLoop)
  /-- else the string still holds the range of the request before -/
  previous : s.curlErrRetryCount = 0 → 1 < s.iLoop →
    s.byteRange = some (rangeAt fileSize (s.iLoop - 1))
  fetched_eq : s.fetched =
    first :: ((List.range' 1 (s.iLoop - 1)).map (rangeAt fileSize)).map some

/-- Before each request the handle carries the range of that request. -/
theorem Tail.setRange_eq {s : LoopState} {first : Option (ℕ × ℕ)}
    (h : Tail s fileSize first) (hle : s.iLoop ≤ s.multipleIntervals) :
    ∃ start, setRange s = { s with
        startRange := start
        byteRange := some (rangeAt fileSize s.iLoop)
        curlRange := some (rangeAt fileSize s.iLoop) } ∧
      (1 < intervals fileSize → start = (s.iLoop - 1) * byteRangeSplit) ∧
      (intervals fileSize = 1 → start = byteRangeSplit) := by
  have hpos := h.iLoop_pos
  have hM := h.intervals_eq
  have hcount : curleCouldntConnectRetryCount = 2 := rfl
  by_cases hretry : s.curlErrRetryCount < curleCouldntConnectRetryCount
  · rw [setRange, if_pos hretry]
    by_cases hlt : s.iLoop < s.multipleIntervals
    · rw [if_pos hlt, if_neg (by omega)]
      by_cases hone : s.iLoop = 1
      · -- the rest of the first split
        rw [if_pos hone, hone]
        refine ⟨0, ?_, fun _ => by omega, fun h1 => by omega⟩
        rw [rangeAt_one (by omega), Nat.zero_add]
      · -- one of the full splits
        have hst := h.start_eq (by omega) (Or.inl (by omega))
        rw [if_neg hone]
        refine ⟨s.startRange, ?_, fun _ => hst, fun h1 => by omega⟩
        rw [rangeAt_inner (by omega) (by omega), hst]
    · have hlast : s.iLoop = s.multipleIntervals := by omega
      rw [if_neg hlt, if_pos hlast, h.fileSize_eq]
      by_cases hshort : fileSize < byteRangeSplit
      · -- a short file: the split lies behind its end
        have h1 := intervals_of_lt hshort
        have hmod : fileSize % byteRangeSplit ≠ 0 := by
          rw [Nat.mod_eq_of_lt hshort]
          exact Nat.ne_of_gt h.fileSize_pos
        have hone : s.iLoop = 1 := by omega
        rw [if_pos hmod, hone, rangeAt_short hshort, h.start_short h1 hone]
        exact ⟨_, rfl, fun h2 => by omega, fun _ => rfl⟩
      · have hge : byteRangeSplit ≤ fileSize := Nat.not_lt.mp hshort
        have h2 := two_le_intervals hge
        have hst := h.start_eq (by omega) (Or.inl (by omega))
        refine ⟨s.startRange, ?_, fun _ => hst, fun h1 => by omega⟩
        by_cases hmod : fileSize % byteRangeSplit ≠ 0
        · -- the remainder
          rw [if_pos hmod, hst, hlast, hM, rangeAt_last hge hmod]
        · -- no remainder: the string stays as it is
          have hbr : s.byteRange = some (rangeAt fileSize s.iLoop) := by
            by_cases h0 : s.curlErrRetryCount = 0
            · rw [h.previous h0 (by omega), hlast, hM, rangeAt_repeat hge (not_not.mp hmod)]
            · exact (h.retried (by omega)).1
          rw [if_neg hmod, ← hbr, ← h.fileSize_eq]
  · -- the last retry: the handle is used as it is
    obtain ⟨hbr, hcr⟩ := h.retried (by omega)
    refine ⟨s.startRange, ?_, fun h1 => h.start_eq h1 (Or.inr (by omega)), fun h1 => ?_⟩
    · rw [setRange, if_neg hretry]
      obtain ⟨⟩ := s
      dsimp only at hbr hcr ⊢
      rw [hbr, hcr]
    · exact h.start_short h1 (by omega)

/-- A refused connection counts one retry. -/
theorem handle_couldntConnect {s s' : LoopState} (h : handle s .couldntConnect = some s') :
    s.curlErrRetryCount ≠ 2 ∧
      s' = { s with curlErrRetryCount := s.curlErrRetryCount + 1 } := by
  by_cases hretry : s.curlErrRetryCount = curleCouldntConnectRetryCount
  · rw [handle, if_pos hretry] at h
    cases h
  · rw [handle, if_neg hretry] at h
    exact ⟨hretry, (Option.some.inj h).symm⟩

/-- A successful request moves on to the next range. -/
theorem Tail.advance {s : LoopState} {fileSize start : ℕ} {first : Option (ℕ × ℕ)}
    (h : Tail s fileSize first) (hle : s.iLoop ≤ s.multipleIntervals)
    (hst : 1 < intervals fileSize → start = (s.iLoop - 1) * byteRangeSplit) :
    Tail (advance { s with
        startRange := start
        byteRange := some (rangeAt fileSize s.iLoop)
        curlRange := some (rangeAt fileSize s.iLoop) }) fileSize first where
  fileSize_pos := h.fileSize_pos
  fileSize_eq := h.fileSize_eq
  intervals_eq := h.intervals_eq
  iLoop_pos := Nat.succ_pos _
  iLoop_le := Nat.succ_le_succ (h.intervals_eq ▸ hle)
  retry_le := Nat.zero_le 2
  start_short := fun _ h1 => by
    have := h.iLoop_pos
    have h2 : s.iLoop + 1 = 1 := h1
    omega
  start_eq := fun hM _ => by
    obtain ⟨i, hi⟩ := Nat.exists_eq_add_of_le' h.iLoop_pos
    have hs := hst hM
    show start + byteRangeSplit = (s.iLoop + 1 - 1) * byteRangeSplit
    rw [hs, hi, Nat.add_sub_cancel, Nat.add_sub_cancel, Nat.succ_mul]
  retried := fun h0 => absurd h0 (Nat.lt_irrefl 0)
  previous := fun _ _ => rfl
  fetched_eq := by
    obtain ⟨i, hi⟩ := Nat.exists_eq_add_of_le' h.iLoop_pos
    show s.fetched ++ [some (rangeAt fileSize s.iLoop)] =
      first :: ((List.range' 1 (s.iLoop + 1 - 1)).map (rangeAt fileSize)).map some
    rw [h.fetched_eq, hi, Nat.add_sub_cancel, Nat.add_sub_cancel, List.range'_1_concat,
      List.map_append, List.map_append, Nat.add_comm 1 i]
    rfl

/-- One pass of the loop once the size is known. -/
theorem Tail.step {s s' : LoopState} {first : Option (ℕ × ℕ)} {r : Reply}
    (h : Tail s fileSize first) (hs : ByteRange.step s r = some s') :
    Tail s' fileSize first := by
  have hpos := h.iLoop_pos
  by_cases hle : s.iLoop ≤ s.multipleIntervals
  · obtain ⟨start, heq, hst, hst1⟩ := h.setRange_eq hle
    have hadv := h.advance hle hst
    rw [ByteRange.step, if_pos hle, heq] at hs
    cases r with
    | ok contentRange =>
      rw [handle, if_neg (Nat.ne_of_gt hpos)] at hs
      exact Option.some.inj hs ▸ hadv
    | redirect =>
      rw [handle, if_neg (Nat.ne_of_gt hpos)] at hs
      exact Option.some.inj hs ▸ hadv
    | couldntConnect =>
      obtain ⟨hretry, rfl⟩ := handle_couldntConnect hs
      exact
        { fileSize_pos := h.fileSize_pos
          fileSize_eq := h.fileSize_eq
          intervals_eq := h.intervals_eq
          iLoop_pos := h.iLoop_pos
          iLoop_le := h.iLoop_le
          retry_le := Nat.succ_le_of_lt (Nat.lt_of_le_of_ne h.retry_le hretry)
          start_short := fun hM _ => hst1 hM
          start_eq := fun hM _ => hst hM
          retried := fun _ => ⟨rfl, rfl⟩
          previous := fun h0 => absurd h0 (Nat.succ_ne_zero _)
          fetched_eq := h.fetched_eq }
    | error =>
      cases hs
  · rw [ByteRange.step, if_neg hle] at hs
    cases hs

/-! ## The loop up to the first reply -/

/-- The redirect came when both retries were used up: the new handle has no
range, and none is set. -/
def RedirectedOnLastRetry (replies : List Reply) : Prop :=
  [.couldntConnect, .couldntConnect, .redirect] <+: replies

instance (replies : List Reply) : Decidable (RedirectedOnLastRetry replies) :=
  inferInstanceAs (Decidable (_ <+: _))

/-- The range the first successful request is made with. -/
def firstRange (replies : List Reply) : Option (ℕ × ℕ) :=
  if RedirectedOnLastRetry replies then none else some (0, 8192 - 1)

/-- The state before the first successful request, after the replies so far. -/
structure Opening (s : LoopState) (replies : List Reply) : Prop where
  iLoop_eq : s.iLoop = 0
  multipleIntervals_eq : s.multipleIntervals = 1
  startRange_eq : s.startRange = 0
  fetched_eq : s.fetched = []
  retry_le : s.curlErrRetryCount ≤ 2
  replies_eq :
    (s.reDirect = false ∧ replies = List.replicate s.curlErrRetryCount .couldntConnect ∧
      (0 < s.curlErrRetryCount → s.curlRange = some (0, 8192 - 1))) ∨
    (s.reDirect = true ∧ ∃ a b, s.curlErrRetryCount = a + b ∧
      replies =
        List.replicate a .couldntConnect ++ .redirect :: List.replicate b .couldntConnect ∧
      s.curlRange = if 0 < b then some (0, 8192 - 1) else none)

theorem opening_init : Opening LoopState.init [] where
  iLoop_eq := rfl
  multipleIntervals_eq := rfl
  startRange_eq := rfl
  fetched_eq := rfl
  retry_le := Nat.zero_le 2
  replies_eq := Or.inl ⟨rfl, rfl, fun h => absurd h (Nat.lt_irrefl 0)⟩

theorem firstRange_retries (n : ℕ) :
    firstRange (List.replicate n .couldntConnect) = some (0, 8192 - 1) := by
  refine if_neg fun h => ?_
  have := List.eq_of_mem_replicate (h.subset (show Reply.redirect ∈ _ by simp))
  cases this

theorem firstRange_redirect (a b : ℕ) :
    firstRange (List.replicate a .couldntConnect ++ .redirect ::
      List.replicate b .couldntConnect) = if a = 2 then none else some (0, 8192 - 1) := by
  match a with
  | 0 => simp [firstRange, RedirectedOnLastRetry]
  | 1 => simp [firstRange, RedirectedOnLastRetry, List.replicate_succ]
  | 2 => simp [firstRange, RedirectedOnLastRetry, List.replicate_succ]
  | a + 3 => simp [firstRange, RedirectedOnLastRetry, List.replicate_succ]

variable {replies : List Reply}

/-- The first request is made with the first range, unless the redirect came
too late. -/
theorem Opening.setRange_eq {s : LoopState} (h : Opening s replies) :
    ∃ byteRange, setRange s =
      { s with byteRange := byteRange, curlRange := firstRange replies } := by
  have h0 := h.iLoop_eq
  have h1 := h.multipleIntervals_eq
  have hle := h.retry_le
  by_cases hretry : s.curlErrRetryCount < 2
  · -- the range is set
    have heq : setRange s =
        { s with byteRange := some (0, 8192 - 1), curlRange := some (0, 8192 - 1) } := by
      show (if s.curlErrRetryCount < 2 then _ else s) = _
      rw [if_pos hretry, if_pos (by omega), if_pos h0, h.startRange_eq]
    refine ⟨some (0, 8192 - 1), ?_⟩
    rcases h.replies_eq with ⟨-, hrep, -⟩ | ⟨-, a, b, hab, hrep, -⟩
    · rw [heq, hrep, firstRange_retries]
    · rw [heq, hrep, firstRange_redirect, if_neg (by omega)]
  · -- both retries are used up: the handle is as it was
    have hcr : s.curlRange = firstRange replies := by
      rcases h.replies_eq with ⟨-, hrep, hcr⟩ | ⟨-, a, b, hab, hrep, hcr⟩
      · rw [hcr (by omega), hrep, firstRange_retries]
      · rw [hcr, hrep, firstRange_redirect]
        by_cases hb : 0 < b
        · rw [if_pos hb, if_neg (by omega)]
        · rw [if_neg hb, if_pos (by omega)]
    refine ⟨s.byteRange, ?_⟩
    rw [← hcr]
    exact if_neg hretry

theorem reportedSize_retries (n : ℕ) (replies : List Reply) :
    reportedSize (List.replicate n .couldntConnect ++ replies) = reportedSize replies := by
  induction n with
  | zero => rfl
  | succ n ih =>
    rw [List.replicate_succ, List.cons_append]
    exact ih

/-- The reply that first reports a size decides it. -/
theorem reportedSize_append (h : reportedSize replies ≠ 0)
    (rest : List Reply) : reportedSize (replies ++ rest) = reportedSize replies := by
  induction replies with
  | nil => exact absurd rfl h
  | cons r replies ih =>
    cases r with
    | ok contentRange => rfl
    | redirect => exact ih h
    | couldntConnect => exact ih h
    | error => exact ih h

/-- What follows a successful request does not change how it began. -/
theorem firstRange_append (h : reportedSize replies ≠ 0)
    (rest : List Reply) : firstRange (replies ++ rest) = firstRange replies := by
  have hiff : RedirectedOnLastRetry (replies ++ rest) ↔ RedirectedOnLastRetry replies := by
    unfold RedirectedOnLastRetry
    match replies, h with
    | [.ok _], _ => simp
    | [a, .ok _], _ => simp
    | [.ok _, b], _ => simp
    | a :: b :: c :: l, _ => simp
  rw [firstRange, firstRange]
  simp only [hiff]

theorem firstRange_snoc_ok (replies : List Reply) (contentRange : Fin 0x80000000) :
    firstRange (replies ++ [.ok contentRange]) = firstRange replies := by
  have hiff : RedirectedOnLastRetry (replies ++ [.ok contentRange]) ↔
      RedirectedOnLastRetry replies := by
    unfold RedirectedOnLastRetry
    match replies with
    | [] => simp
    | [a] => simp
    | [a, b] => simp
    | a :: b :: c :: l => simp
  rw [firstRange, firstRange]
  simp only [hiff]

theorem Opening.reportedSize_snoc {s : LoopState}
    (h : Opening s replies) (contentRange : Fin 0x80000000) :
    reportedSize (replies ++ [.ok contentRange]) = contentRange := by
  rcases h.replies_eq with ⟨-, hrep, -⟩ | ⟨-, a, b, -, hrep, -⟩
  · rw [hrep, reportedSize_retries]
    rfl
  · rw [hrep, List.append_assoc, reportedSize_retries]
    exact reportedSize_retries b [.ok contentRange]

/-- One pass of the loop before the size is known. -/
theorem Opening.step {s s' : LoopState} {r : Reply}
    (h : Opening s replies) (hs : ByteRange.step s r = some s') :
    Opening s' (replies ++ [r]) ∨
      ∃ contentRange, r = .ok contentRange ∧ 0 < contentRange.val ∧
        Tail s' contentRange (firstRange replies) := by
  obtain ⟨br, heq⟩ := h.setRange_eq
  rw [ByteRange.step, if_pos (by rw [h.iLoop_eq]; exact Nat.zero_le _), heq] at hs
  cases r with
  | error =>
    cases hs
  | couldntConnect =>
    obtain ⟨hretry, rfl⟩ := handle_couldntConnect hs
    have hlt : s.curlErrRetryCount < 2 := Nat.lt_of_le_of_ne h.retry_le hretry
    refine Or.inl ⟨h.iLoop_eq, h.multipleIntervals_eq, h.startRange_eq, h.fetched_eq, hlt, ?_⟩
    rcases h.replies_eq with ⟨hre, hrep, -⟩ | ⟨hre, a, b, hab, hrep, -⟩
    · refine Or.inl ⟨hre, ?_, fun _ => ?_⟩
      · rw [hrep, List.replicate_succ']
      · rw [hrep, firstRange_retries]
    · refine Or.inr ⟨hre, a, b + 1, ?_, ?_, ?_⟩
      · show s.curlErrRetryCount + 1 = _
        omega
      · rw [hrep, List.append_assoc, List.cons_append, List.replicate_succ']
      · rw [if_pos (Nat.succ_pos b), hrep, firstRange_redirect, if_neg (by omega)]
  | redirect =>
    rw [handle, if_pos h.iLoop_eq] at hs
    rcases h.replies_eq with ⟨hre, hrep, -⟩ | ⟨hre, -⟩
    · rw [if_neg (by simp [hre])] at hs
      cases hs
      refine Or.inl ⟨h.iLoop_eq, h.multipleIntervals_eq, rfl, h.fetched_eq, h.retry_le,
        Or.inr ⟨rfl, s.curlErrRetryCount, 0, rfl, ?_, ?_⟩⟩
      · rw [← hrep]
        rfl
      · rw [if_neg (Nat.lt_irrefl 0)]
    · rw [if_pos hre] at hs
      cases hs
  | ok contentRange =>
    rw [handle, if_pos h.iLoop_eq] at hs
    by_cases hzero : contentRange.val = 0
    · rw [if_pos hzero] at hs
      cases hs
    · rw [if_neg hzero] at hs
      cases hs
      refine Or.inr ⟨contentRange, rfl, Nat.pos_of_ne_zero hzero, ?_⟩
      have h0 := h.iLoop_eq
      exact
        { fileSize_pos := Nat.pos_of_ne_zero hzero
          fileSize_eq := rfl
          intervals_eq := rfl
          iLoop_pos := Nat.succ_pos _
          iLoop_le := by
            show s.iLoop + 1 ≤ _
            omega
          retry_le := Nat.zero_le 2
          start_short := fun _ _ => by
            show s.startRange + byteRangeSplit = _
            rw [h.startRange_eq, Nat.zero_add]
          start_eq := fun _ hor => by
            rcases hor with h1 | h1
            · have h1' : 1 < s.iLoop + 1 := h1
              omega
            · exact absurd h1 (Nat.lt_irrefl 0)
          retried := fun h1 => absurd h1 (Nat.lt_irrefl 0)
          previous := fun _ h1 => by
            have h1' : 1 < s.iLoop + 1 := h1
            omega
          fetched_eq := by
            rw [h.fetched_eq, h0]
            rfl }

/-! ## The whole loop -/

/-- A state the loop passes through after the replies. -/
def Reached (s : LoopState) (replies : List Reply) : Prop :=
  Opening s replies ∨ Tail s (reportedSize replies) (firstRange replies)

/-- **One pass.** -/
theorem Reached.step {s s' : LoopState} {r : Reply}
    (h : Reached s replies) (hs : ByteRange.step s r = some s') :
    Reached s' (replies ++ [r]) := by
  rcases h with h | h
  · rcases h.step hs with h' | ⟨contentRange, rfl, -, ht⟩
    · exact Or.inl h'
    · refine Or.inr ?_
      rw [h.reportedSize_snoc, firstRange_snoc_ok]
      exact ht
  · refine Or.inr ?_
    have hne := Nat.ne_of_gt h.fileSize_pos
    rw [reportedSize_append hne, firstRange_append hne]
    exact h.step hs

/-- **Every pass.** -/
theorem reached_run {s : LoopState}
    (h : runFrom step LoopState.init replies = some s) : Reached s replies :=
  runFrom_history (R := Reached) (h := []) (fun _ _ _ _ hR hs => hR.step hs)
    (Or.inl opening_init) h

/-- When the loop finishes, every range has been fetched, the first one first. -/
theorem fetched_of_finished {s : LoopState}
    (h : runFrom step LoopState.init replies = some s) (hfin : Finished s) :
    s.fetched = firstRange replies ::
      ((List.range' 1 (intervals (reportedSize replies))).map
        (rangeAt (reportedSize replies))).map some := by
  rcases reached_run h with ho | ht
  · have h0 := ho.iLoop_eq
    have hlt : s.multipleIntervals < s.iLoop := hfin
    omega
  · have hlt : s.multipleIntervals < s.iLoop := hfin
    have hM := ht.intervals_eq
    have hle := ht.iLoop_le
    have hi : s.iLoop = intervals (reportedSize replies) + 1 := by omega
    rw [ht.fetched_eq, hi, Nat.add_sub_cancel]

/-- Where the ranges begin, and the last one ends, for a file of at least one
split and with a remainder. -/
def boundary (fileSize i : ℕ) : ℕ :=
  if i = 1 then 8192
  else if i ≤ intervals fileSize then (i - 1) * byteRangeSplit
  else fileSize

theorem tiles_ranges (h : byteRangeSplit ≤ fileSize)
    (hmod : fileSize % byteRangeSplit ≠ 0) :
    Tiles 0 ((0, 8192 - 1) ::
      (List.range' 1 (intervals fileSize)).map (rangeAt fileSize)) fileSize := by
  have hS := byteRangeSplit_gt
  have h2 := two_le_intervals h
  have hend : boundary fileSize (1 + intervals fileSize) = fileSize := by
    rw [boundary, if_neg (by omega), if_neg (by omega)]
  have hbegin : boundary fileSize 1 = 8192 := if_pos rfl
  suffices hrest : Tiles (boundary fileSize 1)
      ((List.range' 1 (intervals fileSize)).map (rangeAt fileSize))
      (boundary fileSize (1 + intervals fileSize)) by
    rw [hbegin, hend] at hrest
    exact ⟨rfl, by decide, hrest⟩
  refine Tiles.map_range' fun i hi hi' => ?_
  by_cases hone : i = 1
  · -- the rest of the first split
    have hb : boundary fileSize (i + 1) = byteRangeSplit := by
      rw [boundary, if_neg (by omega), if_pos (by omega), hone, Nat.add_sub_cancel, Nat.one_mul]
    rw [hb, hone]
    exact ⟨hS, rangeAt_one (by omega)⟩
  · have hb : boundary fileSize i = (i - 1) * byteRangeSplit := by
      rw [boundary, if_neg hone, if_pos (by omega)]
    by_cases hlt : i < intervals fileSize
    · -- one of the full splits
      have hb' : boundary fileSize (i + 1) = (i - 1) * byteRangeSplit + byteRangeSplit := by
        obtain ⟨j, rfl⟩ := Nat.exists_eq_add_of_le' hi
        rw [boundary, if_neg (by omega), if_pos (by omega), Nat.add_sub_cancel,
          Nat.add_sub_cancel, Nat.succ_mul]
      rw [hb, hb']
      exact ⟨by omega, rangeAt_inner (by omega) hlt⟩
    · -- the remainder
      have hlast : i = intervals fileSize := by omega
      have hb' : boundary fileSize (i + 1) = fileSize := by
        rw [boundary, if_neg (by omega), if_neg (by omega)]
      have hlt' : (i - 1) * byteRangeSplit < fileSize := by
        have hdiv := Nat.div_add_mod' fileSize byteRangeSplit
        rw [hlast, intervals_of_ge h, Nat.add_sub_cancel]
        omega
      rw [hb, hb']
      refine ⟨hlt', ?_⟩
      rw [hlast]
      exact rangeAt_last h hmod

/-- **The byte ranges.** When the loop finishes, its successful requests have
fetched the whole file, range after range, exactly when the file is longer than
one split and not a whole number of splits, and the redirect did not use up the
retries before it. -/
theorem fetchedWhole_iff {replies : List Reply} {s : LoopState}
    (h : runFrom step LoopState.init replies = some s) (hfin : Finished s) :
    FetchedWhole s.fetched (reportedSize replies) ↔
      byteRangeSplit ≤ reportedSize replies ∧ ¬ byteRangeSplit ∣ reportedSize replies ∧
        ¬ RedirectedOnLastRetry replies := by
  have hS := byteRangeSplit_gt
  rw [fetched_of_finished h hfin]
  generalize reportedSize replies = fileSize
  constructor
  · rintro ⟨ranges, heq, htiles⟩
    rcases ranges with _ | ⟨r, ranges⟩
    · cases heq
    · rw [List.map_cons, List.cons.injEq] at heq
      obtain ⟨hfirst, hrest⟩ := heq
      obtain rfl := List.map_injective_iff.mpr (fun _ _ => Option.some.inj) hrest
      have hred : ¬ RedirectedOnLastRetry replies := by
        intro hred
        rw [firstRange, if_pos hred] at hfirst
        cases hfirst
      rw [firstRange, if_neg hred] at hfirst
      obtain rfl := Option.some.inj hfirst
      have hge : byteRangeSplit ≤ fileSize := by
        by_contra hlt
        -- the range of a short file does not begin where the first one ended
        have hlt := Nat.not_le.mp hlt
        rw [intervals_of_lt hlt] at htiles
        have hnext : (rangeAt fileSize 1).1 = 8192 := htiles.2.2.1
        rw [rangeAt_short hlt] at hnext
        exact Nat.ne_of_gt hS hnext
      refine ⟨hge, fun hdvd => ?_, hred⟩
      -- the last two ranges are the same, so they overlap
      have hrep := rangeAt_repeat hge (Nat.mod_eq_zero_of_dvd hdvd)
      obtain ⟨n, hn⟩ := Nat.exists_eq_add_of_le' (two_le_intervals hge)
      rw [hn] at hrep htiles
      have hlast : (List.range' 1 (n + 2)).map (rangeAt fileSize) =
          (List.range' 1 n).map (rangeAt fileSize) ++
            [rangeAt fileSize (n + 1), rangeAt fileSize (n + 1)] := by
        rw [List.range'_1_concat, List.range'_1_concat, List.append_assoc, List.map_append,
          Nat.add_comm 1 n, Nat.add_comm 1 (n + 1)]
        show _ ++ [rangeAt fileSize (n + 1), rangeAt fileSize (n + 2)] = _
        rw [hrep]
        rfl
      rw [hlast] at htiles
      have hlt := htiles.pairwise.tail.sublist (List.sublist_append_right _ _)
      have hle := htiles.nonempty (rangeAt fileSize (n + 1)) (by simp)
      have := (List.pairwise_cons.mp hlt).1 _ (List.mem_singleton_self _)
      omega
  · rintro ⟨hge, hdvd, hred⟩
    refine ⟨(0, 8192 - 1) :: (List.range' 1 (intervals fileSize)).map (rangeAt fileSize), ?_, ?_⟩
    · rw [firstRange, if_neg hred]
      rfl
    · exact tiles_ranges hge fun h0 => hdvd (Nat.dvd_of_mod_eq_zero h0)

/-- A file of two splits and a remainder, with a retry and a redirect before the
first reply and a retry in the middle. -/
def threePieces : List Reply :=
  [.couldntConnect, .redirect, .ok 3000000, .ok 0, .couldntConnect, .ok 0, .ok 0]

theorem fetchedWhole_threePieces :
    ∃ s, runFrom step LoopState.init threePieces = some s ∧ Finished s ∧
      FetchedWhole s.fetched 3000000 := by
  have hrun : (runFrom step LoopState.init threePieces).map (fun s => decide (Finished s))
      = some true := by decide
  obtain ⟨s, hs, hfin⟩ := Option.map_eq_some_iff.mp hrun
  exact ⟨s, hs, of_decide_eq_true hfin,
    (fetchedWhole_iff hs (of_decide_eq_true hfin)).mpr (by decide)⟩

/-- A file of 100000 bytes, every request answered. -/
def shortFile : List Reply := [.ok 100000, .ok 0]

/-- Its second request asks for the bytes from 1347584 to 99999. -/
theorem shortFile_not_fetched :
    ¬ ∀ replies s, runFrom step LoopState.init replies = some s → Finished s →
      FetchedWhole s.fetched (reportedSize replies) := by
  intro h
  have hrun : (runFrom step LoopState.init shortFile).map
      (fun s => (decide (Finished s), s.fetched)) =
        some (true, [some (0, 8191), some (1347584, 99999)]) := by decide
  obtain ⟨s, hs, heq⟩ := Option.map_eq_some_iff.mp hrun
  obtain ⟨hfin, hfetched⟩ := Prod.mk.inj heq
  obtain ⟨ranges, hranges, htiles⟩ := h shortFile s hs (of_decide_eq_true hfin)
  rw [hfetched] at hranges
  obtain rfl : [(0, 8191), (1347584, 99999)] = ranges :=
    List.map_injective_iff.mpr (fun _ _ => Option.some.inj) hranges
  obtain ⟨-, -, hnext, -⟩ := htiles
  exact absurd hnext (by decide)

end ByteRange

end MediaFramework
