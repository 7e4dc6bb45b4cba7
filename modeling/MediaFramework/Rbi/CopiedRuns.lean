import MediaFramework.Rbi.AdPacketPid

/-!
# The cells that are copied (`RBIHTTPInsertSource`)

`receiveData` and `read` copy runs of adjacent cells with `memcpy`, from the head or from the tail
on, and each run has to end where the buffer does. While the buffer is a queue this follows from the
count. A marker that overwrites data leaves a count that is not the distance between the tail and
the head any more, and may be above the capacity. The lengths that are copied come from the head and
the tail alone, and so the runs stay in the buffer even then.

Not so the edit of the first GOP, whose length is the one of the I-frame.
-/

namespace MediaFramework

namespace InsertSource

/-! ## The runs

Both loops are gone through once more. A run is the cell where it begins and its length.
-/

/-- The runs that the loop of `receiveData` fills. -/
def receiveRuns (r : Ring UInt8) (data : List UInt8) : List (ℕ × ℕ) :=
  let copylen := min (freeRun r) data.length
  if 0 < copylen then
    (r.head, copylen) :: receiveRuns (r.push (data.take copylen)) (data.drop copylen)
  else []
termination_by data.length
decreasing_by
  rw [List.length_drop]
  omega

/-- The runs that the loop of `read` empties. -/
def readRuns (r : Ring UInt8) (consume : ℕ) : List (ℕ × ℕ) :=
  let copylen := min (filledRun r) consume
  if 0 < copylen then (r.tail, copylen) :: readRuns (r.drop copylen) (consume - copylen) else []
termination_by consume
decreasing_by
  omega

section Runs

variable {r : Ring UInt8}

/-- `receiveData` writes to no cell outside its runs. -/
theorem receiveLoop_data (data : List UInt8) {i : ℕ}
    (h : ∀ run ∈ receiveRuns r data, i < run.1 ∨ run.1 + run.2 ≤ i) :
    (receiveLoop r data).1.data i = r.data i := by
  induction r, data using receiveLoop.induct with
  | case1 r data copylen hpos ih =>
    rw [receiveRuns, if_pos hpos, List.forall_mem_cons] at h
    obtain ⟨hrun, hrest⟩ := h
    have hlen : (data.take copylen).length = copylen := by
      rw [List.length_take]
      omega
    rw [receiveLoop, if_pos hpos, ih hrest]
    exact store_of_not_mem (by rwa [hlen])
  | case2 r data copylen hpos =>
    rw [receiveLoop, if_neg hpos]

/-- What `read` returns is what its runs hold, one after another. -/
theorem readLoop_runs (consume : ℕ) :
    (readLoop r consume).2 =
      (readRuns r consume).flatMap fun run => load r.data run.1 run.2 := by
  induction r, consume using readLoop.induct with
  | case1 r consume copylen hpos r' rest heq ih =>
    rw [readLoop, if_pos hpos, readRuns, if_pos hpos, List.flatMap_cons]
    exact congrArg (load r.data r.tail copylen ++ ·) ih
  | case2 r consume copylen hpos =>
    rw [readLoop, if_neg hpos, readRuns, if_neg hpos, List.flatMap_nil]

end Runs

/-! ## What every run of the sections keeps

The three places that write or read the buffer without a look at its end: `receiveData`, `read`, and
the marker of `foundFrame`.
-/

end InsertSource

end MediaFramework
