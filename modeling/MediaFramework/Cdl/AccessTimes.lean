import Mathlib.Order.Lattice

/-!
# The access start times of the common download

Downloads are signed with code verification certificates, CVCs, by the manufacturer or by a
co-signer. So that nothing older is taken than what was taken before, three times are stored for
either of them: since when its CVCs are taken, since when its code is, for each type of object, and
what the latter becomes with the next upgrade. A mask remembers whose CVCs the code has to carry.

Of a time it only matters which of two is the earlier one.
-/

namespace MediaFramework

/-- Whose CVC it is. -/
inductive CvcSigner where
  | manufacturer
  | coSigner
  deriving DecidableEq

/-- `CommonDLObjType_e` -/
inductive CommonDLObjType where
  | monolithic
  | firmware
  | app
  | data
  deriving DecidableEq

/-- What is used of `cvcinfo_t`. -/
structure CvcInfo (Time : Type) where
  subjectOrgName : String
  issuerOrgName : String
  subjectCommonName : String
  issuerCommonName : String
  notBefore : Time
  notAfter : Time
  codeSigningExists : Bool

/-- `checkTime`: 0 for the same time, 1 if the first is the earlier one, and -1 if it is the later
one. -/
def checkTime {Time : Type} [LinearOrder Time] (one two : Time) : ℤ :=
  if one = two then 0 else if one < two then 1 else -1

section

variable {Time : Type} [LinearOrder Time] {one two : Time}

theorem checkTime_neg_iff : checkTime one two < 0 ↔ two < one := by
  rw [checkTime]
  split_ifs with heq hlt
  · subst heq
    exact ⟨fun h => absurd h (Int.lt_irrefl 0), fun h => absurd h (lt_irrefl one)⟩
  · exact ⟨fun h => absurd h (by decide), fun h => absurd h (not_lt_of_gt hlt)⟩
  · exact ⟨fun _ => lt_of_le_of_ne (le_of_not_gt hlt) (Ne.symm heq), fun _ => by decide⟩

end

/-- What is stored. -/
structure CdlState (Time : Type) where
  /-- `COM_DOWNL_MAN_CVC`, `COM_DOWNL_COSIG_CVC` -/
  cvcAccessStart : CvcSigner → Time
  /-- `COM_DOWNL_MAN_CODE_ACCESS_START` and those after it -/
  codeAccessStart : CommonDLObjType → CvcSigner → Time
  /-- `COM_DOWNL_UPGRD_MAN_CODE_ACCESS_START` and those after it -/
  upgradeAccessStart : CommonDLObjType → CvcSigner → Time
  /-- `getCVCUsage` -/
  cvcUsage : ℕ

namespace CdlState

variable {Time : Type}

/-- `CommonDownloadSetCvcAccessStartTime` -/
def setCvcAccessStart (s : CdlState Time) (signer : CvcSigner) (time : Time) : CdlState Time :=
  { s with cvcAccessStart := Function.update s.cvcAccessStart signer time }

theorem setCvcAccessStart_apply (s : CdlState Time) (k j : CvcSigner) (time : Time) :
    (s.setCvcAccessStart k time).cvcAccessStart j =
      if j = k then time else s.cvcAccessStart j :=
  Function.update_apply _ _ _ _

end CdlState

end MediaFramework
