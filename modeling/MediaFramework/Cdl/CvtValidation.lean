import MediaFramework.Cdl.AccessTimes
import MediaFramework.Lib.Run
import Mathlib.Data.List.Basic
import Mathlib.Data.Nat.Basic
import Mathlib.Data.Option.Basic

/-!
# The code version tables

`CDownloadCVTValidationMgr::processCVTTrigger` looks at the CVCs of a code version table twice:
first for the organisations they name, then for their signatures, which have to be those of the CVC
CA, and the CA's that of the root. Then the times from which they are valid are stored as the CVC
access start times.

How a CVC is read and how a signature is checked are taken as given, in `PkcsUtils`.
-/

namespace MediaFramework

/-! ## Tables, and what they are looked at with -/

/-- The routines for certificates. -/
structure PkcsUtils (Time : Type) where
  getCVCInfoFromNonSignedData : List UInt8 → Option (CvcInfo Time)
  getPublicKeyFromCVC : List UInt8 → Option (List UInt8)
  /-- a certificate, and the key it should be signed with -/
  validateCertSignature : List UInt8 → List UInt8 → Bool

/-- What is found in the host's memory. -/
structure CdlHost where
  manufacturerName : Option String
  cosignerName : Option String
  clCvcRootCA : Option (List UInt8)
  clCvcCA : Option (List UInt8)
  /-- the stored times can be read -/
  readable : Bool
  /-- a time of this signer can be stored -/
  storable : CvcSigner → Bool

/-- `getCVT_Type` -/
inductive CvtType where
  | t1v1
  | t2vx
  | other
  deriving DecidableEq

/-- What is used of a code version table. -/
structure TableCvt where
  type : CvtType
  version : ℕ
  /-- `num_cvcs`; only a table of the second type says it -/
  numCvcs : ℕ
  /-- `cvc_data` -/
  cvcData : List UInt8

/-- One CVC of a table. -/
structure CvcRecord where
  type : UInt8
  der : List UInt8

/-- Whose CVC it says that it is. -/
def CvcRecord.signer (c : CvcRecord) : Option CvcSigner :=
  if c.type = 0 then some .manufacturer else if c.type = 1 then some .coSigner else none

/-- The two names, if both are there. -/
def CdlHost.names (host : CdlHost) : Option (CvcSigner → String) :=
  match host.manufacturerName, host.cosignerName with
  | some mfrName, some coName => some fun
    | .manufacturer => mfrName
    | .coSigner => coName
  | _, _ => none

namespace TableCvt

/-- `currentLen` -/
def lengthAt (data : List UInt8) (current : ℕ) : ℕ :=
  data[current + 3]?.elim 0 UInt8.toNat * 256 + data[current + 4]?.elim 0 UInt8.toNat

/-- `vlGetNumOfCvcs`, from a position of the data on. The last CVC may be one byte too long. -/
def vlGetNumOfCvcs (data : List UInt8) (current : ℕ) : Option ℕ :=
  if data.length - current < 5 then none
  else if data.length - current < lengthAt data current + 4 then none
  else if data.length ≤ current + lengthAt data current + 4 + 1 then some 1
  else (vlGetNumOfCvcs data (current + lengthAt data current + 4 + 1)).map (· + 1)
termination_by data.length - current

/-- The CVCs that `current` passes over, up to the first one that does not lie in the data. -/
def cvcsFrom (data : List UInt8) : ℕ → ℕ → List (Option CvcRecord)
  | 0, _ => []
  | n + 1, current =>
    match data[current]? with
    | some type =>
      if current + 1 + (lengthAt data current + 4) ≤ data.length then
        some ⟨type, (data.drop (current + 1)).take (lengthAt data current + 4)⟩ ::
          cvcsFrom data n (current + lengthAt data current + 4 + 1)
      else [none]
    | none => [none]

/-- The CVCs of the table, unless it is refused at once. -/
def cvcs (cvt : TableCvt) : Option (List (Option CvcRecord)) :=
  match cvt.type with
  | .t1v1 => (vlGetNumOfCvcs cvt.cvcData 0).bind fun n =>
      if cvt.cvcData = [] ∨ n = 0 then none else some (cvcsFrom cvt.cvcData n 0)
  | .t2vx =>
    if cvt.version = 1 ∨ cvt.version = 2 then
      if cvt.cvcData = [] then none else some (cvcsFrom cvt.cvcData cvt.numCvcs 0)
    else some []
  | .other => none

end TableCvt

/-! ## The validation -/

namespace CvtValidation

variable {Time : Type} (pkcs : PkcsUtils Time)

/-- The first loop: the CVC of each signer that came last, or `none` if the table is refused. There
is room for four; with a fifth, or one that does not lie in the data, the loop is not defined. -/
def collect (names : CvcSigner → String) :
    List (Option CvcRecord) → ℕ → (CvcSigner → Option (CvcInfo Time)) →
      Option (Option (CvcSigner → Option (CvcInfo Time)))
  | [], _, found => some (some found)
  | none :: _, _, _ => none
  | some c :: cs, numCvcs, found =>
    if numCvcs < 4 then
      match pkcs.getCVCInfoFromNonSignedData c.der, c.signer with
      | some info, some signer =>
        if names signer = info.subjectOrgName then
          collect names cs (numCvcs + 1) (Function.update found signer (some info))
        else some none
      | _, _ => some none
    else none

/-- The CVC CA with its key, if it was signed by the root and names it. -/
def verifyCA (host : CdlHost) : Option (CvcInfo Time × List UInt8) := do
  let cvcRoot ← host.clCvcRootCA
  let cvcRootKey ← pkcs.getPublicKeyFromCVC cvcRoot
  let cvcCA ← host.clCvcCA
  guard (pkcs.validateCertSignature cvcCA cvcRootKey)
  let cvcRootInfo ← pkcs.getCVCInfoFromNonSignedData cvcRoot
  let cvcCAInfo ← pkcs.getCVCInfoFromNonSignedData cvcCA
  guard (cvcRootInfo.subjectOrgName = cvcCAInfo.issuerOrgName)
  guard (cvcRootInfo.subjectCommonName = cvcCAInfo.issuerCommonName)
  let cvcCAKey ← pkcs.getPublicKeyFromCVC cvcCA
  return (cvcCAInfo, cvcCAKey)

/-- The second loop: whether each CVC was signed by the CA and names it. -/
def verify (ca : CvcInfo Time × List UInt8) : List (Option CvcRecord) → Option Bool
  | [] => some true
  | none :: _ => none
  | some c :: cs =>
    match pkcs.getCVCInfoFromNonSignedData c.der with
    | some info =>
      if pkcs.validateCertSignature c.der ca.2 ∧ ca.1.subjectOrgName = info.issuerOrgName ∧
          ca.1.subjectCommonName = info.issuerCommonName then verify ca cs
      else some false
    | none => some false

/-- The time from which a CVC is valid is stored; whether it could be is not looked at. -/
def store (host : CdlHost) (s : CdlState Time) (signer : CvcSigner) :
    Option (CvcInfo Time) → CdlState Time
  | some info =>
    if host.storable signer then s.setCvcAccessStart signer info.notBefore else s
  | none => s

section

variable [LinearOrder Time]

/-- The times are checked and stored. If the manufacturer's check fails, that is only logged, and
the co-signer's is made with the manufacturer's time. `cvcMask` is still 0 in the end. -/
def updateAccessStart (host : CdlHost) (s : CdlState Time)
    (found : CvcSigner → Option (CvcInfo Time)) : ℤ × CdlState Time :=
  let s₁ := store host s .manufacturer (found .manufacturer)
  match found .coSigner with
  | some info =>
    if checkTime (s.cvcAccessStart .manufacturer) info.notBefore < 0 then (-1, s₁)
    else (0, { store host s₁ .coSigner (some info) with cvcUsage := 0 })
  | none => (0, { s₁ with cvcUsage := 0 })

/-- What follows the first loop. -/
def validate (host : CdlHost) (s : CdlState Time) (cvcs : List (Option CvcRecord))
    (found : CvcSigner → Option (CvcInfo Time)) : Option (ℤ × CdlState Time) :=
  if found .manufacturer = none ∧ found .coSigner = none then some (-1, s)
  else if (found .manufacturer).any fun info => !info.codeSigningExists then some (-1, s)
  else match verifyCA pkcs host with
    | none => some (-1, s)
    | some ca => (verify pkcs ca cvcs).map fun verified =>
        if verified && host.readable then updateAccessStart host s found else (-1, s)

/-- `processCVTTrigger`: what it returns, and what is stored afterwards. -/
def processCVTTrigger (s : CdlState Time) (host : CdlHost) (cvt : TableCvt) :
    Option (ℤ × CdlState Time) :=
  match host.names, cvt.cvcs with
  | some names, some cvcs =>
    (collect pkcs names cvcs 0 fun _ => none).bind fun
      | some found => validate pkcs host s cvcs found
      | none => some (-1, s)
  | _, _ => some (-1, s)

/-! ## What is expected -/

/-- The CVC can be read, and names the organisation of its signer. -/
def Fits (names : CvcSigner → String) (c : CvcRecord) : Prop :=
  ∃ info ∈ pkcs.getCVCInfoFromNonSignedData c.der, ∃ signer ∈ c.signer,
    names signer = info.subjectOrgName

/-- Up to the first one that does not fit, the CVCs lie in the data, and are four at most. -/
def Laid (names : CvcSigner → String) : List (Option CvcRecord) → ℕ → Prop
  | [], _ => True
  | none :: _, _ => False
  | some c :: cs, numCvcs => numCvcs < 4 ∧ (Fits pkcs names c → Laid names cs (numCvcs + 1))

/-- The CVCs of one signer. -/
def ofSigner (signer : CvcSigner) (cs : List CvcRecord) : List (CvcInfo Time) :=
  cs.filterMap fun c =>
    if c.signer = some signer then pkcs.getCVCInfoFromNonSignedData c.der else none

/-- The CVC was signed by the CA, and names it. -/
def Verified (ca : CvcInfo Time × List UInt8) (c : CvcRecord) : Prop :=
  ∃ info ∈ pkcs.getCVCInfoFromNonSignedData c.der,
    pkcs.validateCertSignature c.der ca.2 = true ∧ ca.1.subjectOrgName = info.issuerOrgName ∧
      ca.1.subjectCommonName = info.issuerCommonName

/-- A table is given to the host. -/
abbrev Call := CdlHost × TableCvt

/-- What is stored after a call. -/
def step (s : CdlState Time) (call : Call) : Option (CdlState Time) :=
  (processCVTTrigger pkcs s call.1 call.2).map Prod.snd

/-- **What an accepted table is.** Each of its CVCs was signed by the CVC CA, names the organisation
expected, and is not valid earlier than from the stored time of its kind on. -/
def Genuine (s : CdlState Time) (call : Call) : Prop :=
  ∃ names ∈ call.1.names, ∃ cs : List CvcRecord, call.2.cvcs = some (cs.map some) ∧ ∀ c ∈ cs,
    (∃ cvcCA ∈ call.1.clCvcCA, ∃ key ∈ pkcs.getPublicKeyFromCVC cvcCA,
      pkcs.validateCertSignature c.der key = true) ∧
    ∃ info ∈ pkcs.getCVCInfoFromNonSignedData c.der, ∃ signer ∈ c.signer,
      names signer = info.subjectOrgName ∧ s.cvcAccessStart signer ≤ info.notBefore

/-- **A good call.** No stored time gets earlier; 0 is returned for a genuine table only; and if -1
is returned, both times are the same as before. -/
def Behaves (s : CdlState Time) (call : Call) : Prop :=
  ∃ ret s', processCVTTrigger pkcs s call.1 call.2 = some (ret, s') ∧
    (∀ signer, s.cvcAccessStart signer ≤ s'.cvcAccessStart signer) ∧
    (ret = 0 → Genuine pkcs s call) ∧ (ret = -1 → s'.cvcAccessStart = s.cvcAccessStart)

/-! ## When it is so -/

/-- These are the CVCs of the table, and there is nothing wrong with them except perhaps for their
times. -/
structure Passes (host : CdlHost) (cvt : TableCvt) (names : CvcSigner → String)
    (cs : List CvcRecord) : Prop where
  named : host.names = some names
  cvcs : cvt.cvcs = some (cs.map some)
  nonempty : cs ≠ []
  fits : ∀ c ∈ cs, Fits pkcs names c
  /-- only the manufacturer's last one has to be for code -/
  codeSigning : ∀ info ∈ (ofSigner pkcs .manufacturer cs).getLast?, info.codeSigningExists = true
  verified : ∃ ca ∈ verifyCA pkcs host, ∀ c ∈ cs, Verified pkcs ca c
  readable : host.readable = true

/-- The co-signer's last CVC is older than the manufacturer's stored time. -/
def Refused (s : CdlState Time) (cs : List CvcRecord) : Prop :=
  ∃ info ∈ (ofSigner pkcs .coSigner cs).getLast?, info.notBefore < s.cvcAccessStart .manufacturer

/-- **When a call is good.** A table that is refused for its co-signer's time brings no other time
of the manufacturer's that could be stored, and one that is not brings no CVC older than the stored
time of its own kind. -/
def Timely (host : CdlHost) (s : CdlState Time) (cs : List CvcRecord) : Prop :=
  (Refused pkcs s cs → host.storable .manufacturer = true →
    ∀ info ∈ (ofSigner pkcs .manufacturer cs).getLast?,
      info.notBefore = s.cvcAccessStart .manufacturer) ∧
  (¬ Refused pkcs s cs → ∀ signer, ∀ info ∈ ofSigner pkcs signer cs,
    s.cvcAccessStart signer ≤ info.notBefore)

/-- What a call must be like. -/
def Orderly (s : CdlState Time) (call : Call) : Prop :=
  (∀ names ∈ call.1.names, ∀ cvcs ∈ call.2.cvcs, Laid pkcs names cvcs 0) ∧
    ∀ names cs, Passes pkcs call.1 call.2 names cs → Timely pkcs call.1 s cs

end

variable {pkcs} {names : CvcSigner → String}

/-! ## The first loop -/

theorem ofSigner_cons {c : CvcRecord} {cs : List CvcRecord} {info : CvcInfo Time}
    {signer k : CvcSigner} (hinfo : pkcs.getCVCInfoFromNonSignedData c.der = some info)
    (hsigner : c.signer = some signer) :
    ofSigner pkcs k (c :: cs) = if k = signer then info :: ofSigner pkcs k cs
      else ofSigner pkcs k cs := by
  rw [ofSigner, List.filterMap_cons, hsigner]
  rcases eq_or_ne k signer with rfl | hne
  · rw [if_pos rfl, if_pos rfl, hinfo]
    rfl
  · rw [if_neg hne, if_neg fun h => hne (Option.some.inj h).symm]
    rfl

/-- **What the first loop collects.** It is not defined if the CVCs are not laid out as they should
be; else it collects the last CVC of each signer if they all fit, and refuses the table if not. -/
theorem collect_cases : ∀ (rs : List (Option CvcRecord)) (n : ℕ)
    (f : CvcSigner → Option (CvcInfo Time)),
    (¬ Laid pkcs names rs n ∧ collect pkcs names rs n f = none) ∨
    Laid pkcs names rs n ∧
      ((∃ (cs : List CvcRecord) (g : _), rs = cs.map some ∧ (∀ c ∈ cs, Fits pkcs names c) ∧
          collect pkcs names rs n f = some (some g) ∧
          ∀ k, g k = (ofSigner pkcs k cs).getLast?.or (f k)) ∨
        (¬ ∃ cs : List CvcRecord, rs = cs.map some ∧ ∀ c ∈ cs, Fits pkcs names c) ∧
          collect pkcs names rs n f = some none) := by
  intro rs
  induction rs with
  | nil =>
    intro n f
    exact Or.inr ⟨trivial, Or.inl ⟨[], f, rfl, fun c hc => absurd hc List.not_mem_nil, rfl,
      fun _ => rfl⟩⟩
  | cons r rs ih =>
    intro n f
    rcases r with _ | c
    · exact Or.inl ⟨id, rfl⟩
    · rcases Nat.lt_or_ge n 4 with hn | hn
      swap
      · exact Or.inl ⟨fun h => Nat.not_le.mpr h.1 hn, if_neg (Nat.not_lt.mpr hn)⟩
      by_cases hfits : Fits pkcs names c
      · obtain ⟨info, hinfo, signer, hsigner, hname⟩ := hfits
        have hcollect : collect pkcs names (some c :: rs) n f =
            collect pkcs names rs (n + 1) (Function.update f signer (some info)) := by
          rw [collect, if_pos hn, Option.mem_def.mp hinfo, Option.mem_def.mp hsigner]
          exact if_pos hname
        have hlaid : Laid pkcs names (some c :: rs) n ↔ Laid pkcs names rs (n + 1) :=
          ⟨fun h => h.2 ⟨info, hinfo, signer, hsigner, hname⟩, fun h => ⟨hn, fun _ => h⟩⟩
        rw [hcollect, hlaid]
        rcases ih (n + 1) (Function.update f signer (some info)) with h | ⟨h, hrest⟩
        · exact Or.inl h
        · refine Or.inr ⟨h, ?_⟩
          rcases hrest with ⟨cs, g, rfl, hcs, hg, hlast⟩ | ⟨hnot, hg⟩
          · refine Or.inl ⟨c :: cs, g, rfl, fun d hd => ?_, hg, fun k => ?_⟩
            · rcases List.mem_cons.mp hd with rfl | hd
              · exact ⟨info, hinfo, signer, hsigner, hname⟩
              · exact hcs d hd
            · rw [hlast, ofSigner_cons hinfo hsigner]
              rcases eq_or_ne k signer with rfl | hne
              · rw [if_pos rfl, Function.update_self, List.getLast?_cons]
                cases (ofSigner pkcs k cs).getLast? <;> rfl
              · rw [if_neg hne, Function.update_of_ne hne]
          · refine Or.inr ⟨?_, hg⟩
            rintro ⟨cs, hcs, hall⟩
            obtain ⟨d, ds, rfl, -, hds⟩ := List.map_eq_cons_iff.mp hcs.symm
            exact hnot ⟨ds, hds.symm, fun e he => hall e (List.mem_cons_of_mem d he)⟩
      · -- the loop ends here
        refine Or.inr ⟨⟨hn, fun h => absurd h hfits⟩, Or.inr ⟨?_, ?_⟩⟩
        · rintro ⟨cs, hcs, hall⟩
          obtain ⟨d, ds, rfl, hd, -⟩ := List.map_eq_cons_iff.mp hcs.symm
          obtain rfl := Option.some.inj hd
          exact hfits (hall d List.mem_cons_self)
        · rw [collect, if_pos hn]
          split
          · next info signer hinfo hsigner =>
            exact if_neg fun hname => hfits ⟨info, hinfo, signer, hsigner, hname⟩
          · rfl

/-! ## The second loop -/

/-- It is defined on what the first loop accepts. -/
theorem verify_eq (ca : CvcInfo Time × List UInt8) (cs : List CvcRecord) :
    ∃ b, verify pkcs ca (cs.map some) = some b ∧ (b = true ↔ ∀ c ∈ cs, Verified pkcs ca c) := by
  induction cs with
  | nil => exact ⟨true, rfl, fun _ c hc => absurd hc List.not_mem_nil, fun _ => rfl⟩
  | cons c cs ih =>
    obtain ⟨b, hb, hiff⟩ := ih
    rw [List.map_cons, verify]
    rcases hinfo : pkcs.getCVCInfoFromNonSignedData c.der with _ | info
    · refine ⟨false, rfl, fun h => (by cases h), fun h => ?_⟩
      obtain ⟨info, hinfo', -⟩ := h c List.mem_cons_self
      rw [hinfo] at hinfo'
      cases hinfo'
    · dsimp only
      split_ifs with hc
      · refine ⟨b, hb, hiff.trans ⟨fun h d hd => ?_, fun h d hd => ?_⟩⟩
        · rcases List.mem_cons.mp hd with rfl | hd
          · exact ⟨info, hinfo, hc⟩
          · exact h d hd
        · exact h d (List.mem_cons_of_mem c hd)
      · refine ⟨false, rfl, fun h => (by cases h), fun h => ?_⟩
        obtain ⟨info', hinfo', hc'⟩ := h c List.mem_cons_self
        obtain rfl := Option.some.inj (hinfo.symm.trans hinfo')
        exact absurd hc' hc

/-- The key that the CVCs are checked with is the one of the CVC CA. -/
theorem key_of_verifyCA {host : CdlHost} {ca : CvcInfo Time × List UInt8}
    (h : verifyCA pkcs host = some ca) :
    ∃ cvcCA ∈ host.clCvcCA, pkcs.getPublicKeyFromCVC cvcCA = some ca.2 := by
  obtain ⟨cvcRoot, -, h⟩ := Option.bind_eq_some_iff.mp h
  obtain ⟨cvcRootKey, -, h⟩ := Option.bind_eq_some_iff.mp h
  obtain ⟨cvcCA, hca, h⟩ := Option.bind_eq_some_iff.mp h
  obtain ⟨-, -, h⟩ := Option.bind_eq_some_iff.mp h
  obtain ⟨cvcRootInfo, -, h⟩ := Option.bind_eq_some_iff.mp h
  obtain ⟨cvcCAInfo, -, h⟩ := Option.bind_eq_some_iff.mp h
  obtain ⟨-, -, h⟩ := Option.bind_eq_some_iff.mp h
  obtain ⟨-, -, h⟩ := Option.bind_eq_some_iff.mp h
  obtain ⟨cvcCAKey, hkey, h⟩ := Option.bind_eq_some_iff.mp h
  cases h
  exact ⟨cvcCA, hca, hkey⟩

/-! ## The times -/

section

variable {host : CdlHost} {s : CdlState Time} {found : CvcSigner → Option (CvcInfo Time)}

/-- Only the signer's own time changes. -/
theorem store_apply (k j : CvcSigner) (o : Option (CvcInfo Time)) :
    (store host s k o).cvcAccessStart j =
      if j = k ∧ host.storable k = true then o.elim (s.cvcAccessStart j) CvcInfo.notBefore
      else s.cvcAccessStart j := by
  cases o with
  | none =>
    rw [store, Option.elim_none, ite_self]
  | some info =>
    rw [store, Option.elim_some]
    by_cases hstorable : host.storable k = true
    · rw [if_pos hstorable, CdlState.setCvcAccessStart_apply]
      exact if_congr (and_iff_left hstorable).symm rfl rfl
    · rw [if_neg hstorable, if_neg fun h => hstorable h.2]

end

section

variable [LinearOrder Time] {s : CdlState Time} {found : CvcSigner → Option (CvcInfo Time)}

/-- The table is refused for the co-signer's time, after the manufacturer's has been stored. -/
theorem updateAccessStart_refused {host : CdlHost} {info : CvcInfo Time}
    (h : found .coSigner = some info) (hold : info.notBefore < s.cvcAccessStart .manufacturer) :
    updateAccessStart host s found = (-1, store host s .manufacturer (found .manufacturer)) := by
  rw [updateAccessStart, h]
  exact if_pos (checkTime_neg_iff.mpr hold)

/-- The table is accepted, and the times of both are stored. -/
theorem updateAccessStart_accepted (host : CdlHost)
    (h : ∀ info ∈ found .coSigner, s.cvcAccessStart .manufacturer ≤ info.notBefore) :
    ∃ s', updateAccessStart host s found = (0, s') ∧ ∀ k, s'.cvcAccessStart k =
      if host.storable k = true then (found k).elim (s.cvcAccessStart k) CvcInfo.notBefore
      else s.cvcAccessStart k := by
  rcases hco : found .coSigner with _ | info
  · refine ⟨_, by rw [updateAccessStart, hco], fun k => ?_⟩
    rw [store_apply]
    cases k with
    | manufacturer => exact if_congr (and_iff_right rfl) rfl rfl
    | coSigner =>
      rw [hco, Option.elim_none, ite_self]
      exact if_neg fun h => nomatch h.1
  · have hnot : ¬ checkTime (s.cvcAccessStart .manufacturer) info.notBefore < 0 :=
      fun hlt => not_lt_of_ge (h info hco) (checkTime_neg_iff.mp hlt)
    refine ⟨_, by rw [updateAccessStart, hco]; exact if_neg hnot, fun k => ?_⟩
    rw [store_apply, store_apply]
    cases k with
    | manufacturer =>
      rw [if_neg fun h => nomatch h.1]
      exact if_congr (and_iff_right rfl) rfl rfl
    | coSigner =>
      rw [hco, if_neg (c := CvcSigner.coSigner = .manufacturer ∧ _) fun h => nomatch h.1]
      exact if_congr (and_iff_right rfl) rfl rfl

end

/-! ## One call -/

/-- There is one list of CVCs that a table can have. -/
theorem cvcs_unique {cvt : TableCvt} {cs cs' : List CvcRecord} (h : cvt.cvcs = some (cs.map some))
    (h' : cvt.cvcs = some (cs'.map some)) : cs = cs' :=
  List.map_injective_iff.mpr (Option.some_injective _) (Option.some.inj (h.symm.trans h'))

/-- If they all fit, there is none of either signer only if there is none at all. -/
theorem exists_ofSigner {cs : List CvcRecord} (hfits : ∀ c ∈ cs, Fits pkcs names c)
    (hne : cs ≠ []) : ∃ k, ofSigner pkcs k cs ≠ [] := by
  obtain ⟨c, ds, rfl⟩ := List.exists_cons_of_ne_nil hne
  obtain ⟨info, hinfo, signer, hsigner, -⟩ := hfits c List.mem_cons_self
  refine ⟨signer, ?_⟩
  rw [ofSigner_cons hinfo hsigner, if_pos rfl]
  exact List.cons_ne_nil _ _

section

variable [LinearOrder Time] {s : CdlState Time} {call : Call}

variable {cs : List CvcRecord}

/-- **What follows the first loop.** The times are looked at if the table passes, and else it is
refused. -/
theorem validate_cases {host : CdlHost} {cvt : TableCvt}
    {found : CvcSigner → Option (CvcInfo Time)} (hnamed : host.names = some names)
    (hcvcs : cvt.cvcs = some (cs.map some)) (hfits : ∀ c ∈ cs, Fits pkcs names c)
    (hlast : ∀ k, found k = (ofSigner pkcs k cs).getLast?) :
    (Passes pkcs host cvt names cs ∧
      validate pkcs host s (cs.map some) found = some (updateAccessStart host s found)) ∨
    ¬ Passes pkcs host cvt names cs ∧
      validate pkcs host s (cs.map some) found = some (-1, s) := by
  rw [validate]
  by_cases hne : cs = []
  · refine Or.inr ⟨fun h => h.nonempty hne, if_pos ?_⟩
    rw [hlast, hlast, hne]
    exact ⟨rfl, rfl⟩
  have hsome : ¬ (found .manufacturer = none ∧ found .coSigner = none) := by
    rintro ⟨hmfr, hco⟩
    obtain ⟨k, hk⟩ := exists_ofSigner hfits hne
    rw [hlast, List.getLast?_eq_none_iff] at hmfr hco
    cases k with
    | manufacturer => exact hk hmfr
    | coSigner => exact hk hco
  rw [if_neg hsome, hlast .manufacturer]
  by_cases hcode : ∀ info ∈ (ofSigner pkcs .manufacturer cs).getLast?,
      info.codeSigningExists = true
  swap
  · refine Or.inr ⟨fun h => hcode h.codeSigning, if_pos ?_⟩
    push Not at hcode
    obtain ⟨info, hinfo, hno⟩ := hcode
    rw [Option.mem_def.mp hinfo, Option.any_some, Bool.not_eq_true', ← Bool.not_eq_true]
    exact hno
  rw [if_neg]
  swap
  · intro h
    obtain ⟨info, hinfo, hno⟩ := (Option.any_eq_true _ _).mp h
    rw [hcode info hinfo] at hno
    cases hno
  rcases hca : verifyCA pkcs host with _ | ca
  · refine Or.inr ⟨fun h => ?_, rfl⟩
    obtain ⟨ca, hca', -⟩ := h.verified
    rw [hca] at hca'
    cases hca'
  obtain ⟨b, hb, hverified⟩ : ∃ b, verify pkcs ca (cs.map some) = some b ∧
      (b = true ↔ ∀ c ∈ cs, Verified pkcs ca c) := verify_eq ca cs
  dsimp only
  rw [hb, Option.map_some]
  by_cases hok : (b && host.readable) = true
  · rw [if_pos hok]
    rw [Bool.and_eq_true] at hok
    exact Or.inl ⟨⟨hnamed, hcvcs, hne, hfits, hcode, ⟨ca, hca, hverified.mp hok.1⟩, hok.2⟩, rfl⟩
  · rw [if_neg hok]
    refine Or.inr ⟨fun h => hok ?_, rfl⟩
    obtain ⟨ca', hca', hall⟩ := h.verified
    obtain rfl := Option.some.inj (hca.symm.trans hca')
    rw [hverified.mpr hall, h.readable]
    rfl

/-- **What becomes of a table.** Nothing is defined if its CVCs are not laid out as they should be;
else the times are looked at if it passes, and it is refused if not. -/
theorem processCVTTrigger_cases (pkcs : PkcsUtils Time) (s : CdlState Time) (host : CdlHost)
    (cvt : TableCvt) :
    ((¬ ∀ names ∈ host.names, ∀ cvcs ∈ cvt.cvcs, Laid pkcs names cvcs 0) ∧
      processCVTTrigger pkcs s host cvt = none) ∨
    (∀ names ∈ host.names, ∀ cvcs ∈ cvt.cvcs, Laid pkcs names cvcs 0) ∧
      ((∃ names cs found, Passes pkcs host cvt names cs ∧
          processCVTTrigger pkcs s host cvt = some (updateAccessStart host s found) ∧
          ∀ k, found k = (ofSigner pkcs k cs).getLast?) ∨
        (∀ names cs, ¬ Passes pkcs host cvt names cs) ∧
          processCVTTrigger pkcs s host cvt = some (-1, s)) := by
  rw [processCVTTrigger]
  rcases hnames : host.names with _ | names
  · refine Or.inr ⟨fun _ h => (by cases h), Or.inr ⟨fun names cs h => ?_, rfl⟩⟩
    rw [h.named] at hnames
    cases hnames
  rcases hcvcs : cvt.cvcs with _ | rs
  · refine Or.inr ⟨fun _ _ _ h => (by cases h), Or.inr ⟨fun names cs h => ?_, rfl⟩⟩
    rw [h.cvcs] at hcvcs
    cases hcvcs
  dsimp only
  have hlaid_iff : (∀ n ∈ some names, ∀ cvcs ∈ some rs, Laid pkcs n cvcs 0) ↔
      Laid pkcs names rs 0 := by
    simp only [Option.mem_def, Option.some.injEq, forall_eq']
  rw [hlaid_iff]
  rcases (collect_cases rs 0 _ : (¬ Laid pkcs names rs 0 ∧
      collect pkcs names rs 0 (fun _ => none) = none) ∨ _) with ⟨hlaid, hnone⟩ | ⟨hlaid, h⟩
  · exact Or.inl ⟨hlaid, by rw [hnone]; rfl⟩
  refine Or.inr ⟨hlaid, ?_⟩
  rcases h with ⟨cs, found, rfl, hfits, hfound, hlast⟩ | ⟨hnot, hfound⟩
  · rw [hfound, Option.bind_some]
    have hlast' : ∀ k, found k = (ofSigner pkcs k cs).getLast? := fun k => by
      rw [hlast, Option.or_none]
    rcases validate_cases (s := s) hnames hcvcs hfits hlast' with ⟨hp, h⟩ | ⟨hp, h⟩
    · exact Or.inl ⟨names, cs, found, hp, h, hlast'⟩
    · refine Or.inr ⟨fun names' cs' h' => hp ?_, h⟩
      obtain rfl : names = names' := Option.some.inj (hnames.symm.trans h'.named)
      obtain rfl := cvcs_unique hcvcs h'.cvcs
      exact h'
  · rw [hfound, Option.bind_some]
    refine Or.inr ⟨fun names' cs' h' => hnot ⟨cs', ?_, ?_⟩, rfl⟩
    · exact Option.some.inj (hcvcs.symm.trans h'.cvcs)
    · obtain rfl : names = names' := Option.some.inj (hnames.symm.trans h'.named)
      exact h'.fits

/-- A table that passes is genuine if its CVCs are not older than the stored times. -/
theorem Passes.genuine_iff (h : Passes pkcs call.1 call.2 names cs) :
    Genuine pkcs s call ↔
      ∀ k, ∀ info ∈ ofSigner pkcs k cs, s.cvcAccessStart k ≤ info.notBefore := by
  constructor
  · rintro ⟨names', hnames, cs', hcs, hall⟩ k info hinfo
    obtain rfl := cvcs_unique h.cvcs hcs
    obtain ⟨c, hc, hof⟩ := List.mem_filterMap.mp hinfo
    obtain ⟨-, info', hinfo', signer, hsigner, -, hle⟩ := hall c hc
    by_cases hk : c.signer = some k
    · rw [if_pos hk] at hof
      obtain rfl := Option.some.inj (hk.symm.trans hsigner)
      obtain rfl := Option.some.inj (hof.symm.trans hinfo')
      exact hle
    · rw [if_neg hk] at hof
      cases hof
  · intro hall
    refine ⟨names, h.named, cs, h.cvcs, fun c hc => ?_⟩
    obtain ⟨info, hinfo, signer, hsigner, hname⟩ := h.fits c hc
    obtain ⟨ca, hca, hverified⟩ := h.verified
    obtain ⟨cvcCA, hcvcCA, hkey⟩ := key_of_verifyCA hca
    obtain ⟨-, -, hsigned, -⟩ := hverified c hc
    refine ⟨⟨cvcCA, hcvcCA, ca.2, hkey, hsigned⟩, info, hinfo, signer, hsigner, hname, ?_⟩
    refine hall signer info (List.mem_filterMap.mpr ⟨c, hc, ?_⟩)
    rw [if_pos (Option.mem_def.mp hsigner)]
    exact hinfo

theorem behaves_of_eq {ret : ℤ} {s' : CdlState Time}
    (h : processCVTTrigger pkcs s call.1 call.2 = some (ret, s')) : Behaves pkcs s call ↔
      (∀ signer, s.cvcAccessStart signer ≤ s'.cvcAccessStart signer) ∧
        (ret = 0 → Genuine pkcs s call) ∧ (ret = -1 → s'.cvcAccessStart = s.cvcAccessStart) := by
  rw [Behaves, h]
  constructor
  · rintro ⟨_, _, heq, hb⟩
    obtain ⟨rfl, rfl⟩ := Prod.mk.inj (Option.some.inj heq)
    exact hb
  · exact fun hb => ⟨ret, s', rfl, hb⟩

theorem orderly_of_passes
    (hlaid : ∀ names ∈ call.1.names, ∀ cvcs ∈ call.2.cvcs, Laid pkcs names cvcs 0)
    (hp : Passes pkcs call.1 call.2 names cs) :
    Orderly pkcs s call ↔ Timely pkcs call.1 s cs := by
  refine ⟨fun h => h.2 names cs hp, fun h => ⟨hlaid, fun names' cs' hp' => ?_⟩⟩
  obtain rfl := cvcs_unique hp.cvcs hp'.cvcs
  exact h

/-- The manufacturer's time is stored although the table is refused. -/
theorem behaves_refused_iff {found : CvcSigner → Option (CvcInfo Time)}
    (hlast : ∀ k, found k = (ofSigner pkcs k cs).getLast?) (hrefused : Refused pkcs s cs)
    (h : processCVTTrigger pkcs s call.1 call.2 = some (updateAccessStart call.1 s found)) :
    Behaves pkcs s call ↔ Timely pkcs call.1 s cs := by
  obtain ⟨info, hinfo, hold⟩ := hrefused
  rw [updateAccessStart_refused ((hlast .coSigner).trans hinfo) hold] at h
  have htimely : Timely pkcs call.1 s cs ↔ (call.1.storable .manufacturer = true →
      ∀ info ∈ found .manufacturer, info.notBefore = s.cvcAccessStart .manufacturer) := by
    rw [hlast]
    exact ⟨fun ht => ht.1 ⟨info, hinfo, hold⟩,
      fun ht => ⟨fun _ => ht, fun hnot => absurd ⟨info, hinfo, hold⟩ hnot⟩⟩
  rw [behaves_of_eq h, htimely]
  constructor
  · rintro ⟨-, -, hsame⟩ hstorable i hi
    have hm := congrFun (hsame rfl) .manufacturer
    rw [store_apply, if_pos ⟨rfl, hstorable⟩, Option.mem_def.mp hi] at hm
    exact hm
  · intro ht
    have hsame : ∀ k, (store call.1 s .manufacturer (found .manufacturer)).cvcAccessStart k =
        s.cvcAccessStart k := fun k => by
      rw [store_apply]
      split_ifs with hk
      · obtain ⟨rfl, hstorable⟩ := hk
        rcases hi : found .manufacturer with _ | i
        · rfl
        · exact ht hstorable i hi
      · rfl
    exact ⟨fun k => le_of_eq (hsame k).symm, fun h => absurd h (by decide), fun _ => funext hsame⟩

/-- Of the CVCs of a table that is accepted, only the co-signer's last one has been looked at, and
with the manufacturer's time. -/
theorem behaves_accepted_iff {found : CvcSigner → Option (CvcInfo Time)}
    (hp : Passes pkcs call.1 call.2 names cs)
    (hlast : ∀ k, found k = (ofSigner pkcs k cs).getLast?) (hrefused : ¬ Refused pkcs s cs)
    (h : processCVTTrigger pkcs s call.1 call.2 = some (updateAccessStart call.1 s found)) :
    Behaves pkcs s call ↔ Timely pkcs call.1 s cs := by
  have hco : ∀ info ∈ found .coSigner, s.cvcAccessStart .manufacturer ≤ info.notBefore :=
    fun info hinfo => le_of_not_gt fun hold => hrefused ⟨info, hlast .coSigner ▸ hinfo, hold⟩
  obtain ⟨s', hs', hstored⟩ := updateAccessStart_accepted call.1 hco
  rw [hs'] at h
  rw [behaves_of_eq h, hp.genuine_iff]
  constructor
  · exact fun ⟨_, hgenuine, _⟩ => ⟨fun hr => absurd hr hrefused, fun _ => hgenuine rfl⟩
  · intro ht
    have hall := ht.2 hrefused
    refine ⟨fun k => ?_, fun _ => hall, fun h => absurd h (by decide)⟩
    rw [hstored]
    split_ifs
    · rcases hk : found k with _ | info
      · exact le_rfl
      · exact hall k info (List.mem_of_getLast? ((hlast k).symm.trans hk))
    · exact le_rfl

/-- **One call.** -/
theorem behaves_iff (s : CdlState Time) (call : Call) :
    Behaves pkcs s call ↔ Orderly pkcs s call := by
  rcases processCVTTrigger_cases pkcs s call.1 call.2 with
    ⟨hlaid, h⟩ | ⟨hlaid, ⟨names, cs, found, hp, h, hlast⟩ | ⟨hp, h⟩⟩
  · refine iff_of_false ?_ fun ho => hlaid ho.1
    rintro ⟨_, _, hsome, -⟩
    rw [h] at hsome
    cases hsome
  · rw [orderly_of_passes hlaid hp]
    by_cases hrefused : Refused pkcs s cs
    · exact behaves_refused_iff hlast hrefused h
    · exact behaves_accepted_iff hp hlast hrefused h
  · refine iff_of_true ?_ ⟨hlaid, fun names cs hpasses => absurd hpasses (hp names cs)⟩
    exact (behaves_of_eq h).mpr ⟨fun _ => le_rfl, fun h => absurd h (by decide), fun _ => rfl⟩

/-- No stored time of a CVC is earlier than it was. -/
def NoEarlier (s t : CdlState Time) : Prop :=
  ∀ signer, s.cvcAccessStart signer ≤ t.cvcAccessStart signer

/-- **The times are protected as long as the tables are orderly.** Through a whole run of tables no
stored time ever gets earlier, and each call is a good one, exactly if each table is orderly where
it comes. -/
theorem times_protected (pkcs : PkcsUtils Time) (s : CdlState Time) (calls : List Call) :
    (Throughout (step pkcs) (NoEarlier s) s calls ∧
        EachStep (step pkcs) (Behaves pkcs) s calls) ↔
      EachStep (step pkcs) (Orderly pkcs) s calls := by
  refine Throughout.and_eachStep_iff (fun t call ht => ?_) fun _ => le_rfl
  rw [← behaves_iff]
  refine ⟨And.left, fun h => ⟨h, ?_⟩⟩
  obtain ⟨ret, t', hcall, hle, -⟩ := h
  refine ⟨t', ?_, fun k => le_trans (ht k) (hle k)⟩
  rw [step, hcall]
  rfl

end

/-- Whose certificate it is, by the number that stands in it. -/
def organisation (n : UInt8) : String :=
  if n = 0 then "CVC Root" else if n = 1 then "CVC CA" else if n = 2 then "Maker" else "Operator"

/-- Short certificates: who it is, since which year, and who signed it. -/
def shortPkcs : PkcsUtils ℕ where
  getCVCInfoFromNonSignedData
    | [0x30, 0x82, 0, 3, subject, year, issuer] =>
      some ⟨organisation subject, organisation issuer, organisation subject, organisation issuer,
        year.toNat, 99, true⟩
    | _ => none
  getPublicKeyFromCVC der := der[4]?.map fun subject => [subject]
  validateCertSignature der key := der[6]?.toList == key

def shortHost : CdlHost where
  manufacturerName := some "Maker"
  cosignerName := some "Operator"
  clCvcRootCA := some [0x30, 0x82, 0, 3, 0, 10, 0]
  clCvcCA := some [0x30, 0x82, 0, 3, 1, 10, 0]
  readable := true
  storable _ := true

/-- Both signers' CVCs are taken since the year 26. -/
def sinceTwentySix : CdlState ℕ := ⟨fun _ => 26, fun _ _ => 26, fun _ _ => 26, 0⟩

/-- One CVC of the manufacturer's, valid since the year 20. -/
def olderCvc : TableCvt := ⟨.t2vx, 1, 1, [0, 0x30, 0x82, 0, 3, 2, 20, 1]⟩

/-- The older CVC is accepted, and its time is stored: since then, CVCs are taken that have not been
taken before. -/
theorem olderCvc_not_protected :
    ¬ ∀ calls, Throughout (step shortPkcs) (NoEarlier sinceTwentySix) sinceTwentySix calls ∧
        EachStep (step shortPkcs) (Behaves shortPkcs) sinceTwentySix calls := by
  intro h
  obtain ⟨t, hrun, hearlier⟩ := (h [(shortHost, olderCvc)]).1 [(shortHost, olderCvc)] [] rfl
  have hstored : (runFrom (step shortPkcs) sinceTwentySix [(shortHost, olderCvc)]).map
      (fun t => t.cvcAccessStart .manufacturer) = some 20 := by decide
  rw [hrun] at hstored
  have htime : t.cvcAccessStart .manufacturer = 20 := Option.some.inj hstored
  have hle : 26 ≤ t.cvcAccessStart .manufacturer := hearlier .manufacturer
  rw [htime] at hle
  exact absurd hle (by decide)

end CvtValidation

end MediaFramework
