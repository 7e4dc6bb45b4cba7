import MediaFramework.Cdl.Bitstream
import MediaFramework.Cdl.CvtValidation

/-!
# Reading code version tables (`TableCVT_T2Vx`)

A table of the second type is read once for its version, and then once more from the beginning. Both
versions begin with the same fields and end with the CVCs. Between them the first version has one
place to load the code file from; the second has up to four objects, each with a place of its own.

The counts are those of the table. Of descriptors, names and objects' data any count is read; of
objects as well, but there is room for `CVT2V2_MAX_OBJECTS` only.
-/

namespace MediaFramework

/-! ## What is read -/

/-- `CVT2V2_MAX_OBJECTS` -/
def cvt2v2MaxObjects : ℕ := 4

/-- `location_data_t`: what of it is set. -/
inductive LocationData where
  | none
  | t0 (sourceId : ℕ)
  | t1 (freq_vector modulation_type PID : ℕ)
  | t2 (freq_vector modulation_type program_num : ℕ)
  | t3 (dsg_tunnel_addr src_ip_addr_upper src_ip_addr_lower dst_ip_addr_upper
      dst_ip_addr_lower src_port dst_port : ℕ)
  | t4 (app_id : ℕ)
  | tftp (tftp_addr_upper tftp_addr_lower : List UInt8)
  deriving DecidableEq

/-- How something is loaded, and where from. -/
structure CvtPlace where
  downloadtype : ℕ
  download_command : ℕ
  location_type : ℕ
  loc_data : LocationData
  deriving DecidableEq

/-- The fields both versions begin with. An `int` is kept as its 32 bits. -/
structure CvtIds where
  protocol_version : ℕ
  config_count_change : ℕ
  vendorId : ℕ
  hardwareVersionId : ℕ
  host_MAC_addr : ℕ
  host_id : ℕ
  deriving DecidableEq

/-- `t2v2_objects_t`: the fields that are read. -/
structure T2v2Object where
  place : CvtPlace
  object_type : ℕ
  object_data : List UInt8
  codefile : List UInt8
  deriving DecidableEq

/-- `num_cvcs` and `cvc_data`. -/
structure CvtCvcs where
  num_cvcs : ℕ
  cvc_data : List UInt8
  deriving DecidableEq

/-- `cvtdownload_data_t`, for each version. -/
inductive CvtT2vx where
  | ver1 (ids : CvtIds) (place : CvtPlace) (codefile : List UInt8) (cvcs : CvtCvcs)
  | ver2 (ids : CvtIds) (objects : List T2v2Object) (cvcs : CvtCvcs)
  | other (version : ℕ)
  deriving DecidableEq

/-! ## Reading it -/

/-- `length_field`; what it says is not used. -/
def lengthField : CvtRead Unit := do
  let size_indicator ← get_bits 1
  if size_indicator = 0 then
    let _ ← get_bits 7
  else
    let length_field_size ← get_bits 7
    let _ ← get_bits (8 * length_field_size)

/-- One descriptor. Two tags have a length of their own, whatever it says. -/
def cvtDescriptor (ids : CvtIds) : CvtRead CvtIds := do
  let des_tag ← get_bits 8
  let des_len ← get_bits 8
  if des_tag = 0x00 then
    let vendorId ← get_bits (8 * des_len)
    return { ids with vendorId := vendorId % 2 ^ 32 }
  else if des_tag = 0x01 then
    let hardwareVersionId ← get_bits (8 * des_len)
    return { ids with hardwareVersionId := hardwareVersionId % 2 ^ 32 }
  else if des_tag = 0x02 then
    let high ← get_bits 16
    let low ← get_bits 32
    return { ids with host_MAC_addr := high <<< 32 ||| low }
  else if des_tag = 0x03 then
    let high ← get_bits 8
    let low ← get_bits 32
    return { ids with host_id := high <<< 32 ||| low }
  else
    skip_bits (8 * des_len)
    return ids

def cvtDescriptors : ℕ → CvtIds → CvtRead CvtIds
  | 0, ids => return ids
  | n + 1, ids => do
    let ids ← cvtDescriptor ids
    cvtDescriptors n ids

/-- The fields up to the number of descriptors, which is the second result. -/
def cvtHeader : CvtRead (CvtIds × ℕ) := do
  skip_bits 24
  lengthField
  let protocol_version ← get_bits 8
  let config_count_change ← get_bits 8
  let num_descriptors ← get_bits 8
  return (⟨protocol_version, config_count_change, 0, 0, 0, 0⟩, num_descriptors)

/-- The 13 bits of a PID, behind three others. -/
def get_pid : CvtRead ℕ := do
  skip_bits 3
  get_bits 13

/-- A number of 64 bits. -/
def get_long : CvtRead ℕ := do
  let high ← get_bits 32
  let low ← get_bits 32
  return high <<< 32 ||| low

/-- The location of a transport stream or of a service. -/
def inbandLocation : CvtRead (ℕ × LocationData) := do
  let location_type ← get_bits 8
  if location_type = 0x00 then
    let sourceId ← get_bits 16
    return (location_type, .t0 sourceId)
  else if location_type = 0x01 then
    let freq_vector ← get_bits 16
    let modulation_type ← get_bits 8
    let pid ← get_pid
    return (location_type, .t1 freq_vector modulation_type pid)
  else if location_type = 0x02 then
    let freq_vector ← get_bits 16
    let modulation_type ← get_bits 8
    let program_num ← get_bits 16
    return (location_type, .t2 freq_vector modulation_type program_num)
  else
    return (location_type, .none)

/-- The location of a tunnel. -/
def dsgLocation : CvtRead (ℕ × LocationData) := do
  let location_type ← get_bits 8
  if location_type = 0x03 then
    let high ← get_bits 16
    let low ← get_bits 32
    let src_upper ← get_long
    let src_lower ← get_long
    let dst_upper ← get_long
    let dst_lower ← get_long
    let src_port ← get_bits 16
    let dst_port ← get_bits 16
    return (location_type,
      .t3 (high <<< 32 ||| low) src_upper src_lower dst_upper dst_lower src_port dst_port)
  else if location_type = 0x04 then
    let app_id ← get_bits 16
    return (location_type, .t4 app_id)
  else
    return (location_type, .none)

/-- The address of a server. -/
def tftpLocation : CvtRead (ℕ × LocationData) := do
  let upper ← get_chars 8
  let lower ← get_chars 8
  return (0xFF, .tftp upper lower)

def location (downloadtype : ℕ) : CvtRead (ℕ × LocationData) :=
  if downloadtype = 0x00 then inbandLocation
  else if downloadtype = 0x01 then dsgLocation
  else if downloadtype = 0x02 then tftpLocation
  else pure (0, .none)

/-- How something is loaded, and where from. -/
def cvtPlace : CvtRead CvtPlace := do
  let downloadtype ← get_bits 4
  let download_command ← get_bits 4
  let loc ← location downloadtype
  return ⟨downloadtype, download_command, loc.1, loc.2⟩

/-- Characters behind their number. -/
def counted_chars : CvtRead (List UInt8) := do
  let len ← get_bits 8
  get_chars len

/-- One object. -/
def t2v2Object : CvtRead T2v2Object := do
  let place ← cvtPlace
  let object_type ← get_bits 16
  let object_data ← counted_chars
  let codefile ← counted_chars
  return ⟨place, object_type, object_data, codefile⟩

/-- The objects, from the entry `i` of `object_info` on. -/
def t2v2Objects : ℕ → ℕ → CvtRead (List T2v2Object)
  | 0, _ => return []
  | n + 1, i => do
    if cvt2v2MaxObjects ≤ i then failure
    let o ← t2v2Object
    let os ← t2v2Objects n (i + 1)
    return o :: os

/-- The bytes of `cvc_data`, from the byte `l` on. -/
def cvcBytes (cvc_len_bits : ℤ) : ℕ → ℕ → CvtRead (List UInt8)
  | 0, _ => return []
  | n + 1, l => do
    let c ← get_bits (if cvc_len_bits < l * 8 then (cvc_len_bits - (l - 1) * 8).toNat else 8)
    let cs ← cvcBytes cvc_len_bits n (l + 1)
    return UInt8.ofNat c :: cs

/-- `cvc_data`: what is left of the buffer. Its length is an `int`. -/
def cvcData (len : ℕ) : CvtRead (List UInt8) := do
  let cvc_start_bit ← get_pos
  let cvc_len_bits := Int.bmod (len * 8 - cvc_start_bit) (2 ^ 32)
  let cvc_len_bytes := cvc_len_bits.tdiv 8 + if cvc_len_bits.tmod 8 ≠ 0 then 1 else 0
  cvcBytes cvc_len_bits cvc_len_bytes.toNat 0

/-- The CVCs. -/
def cvtCvcs (len : ℕ) : CvtRead CvtCvcs := do
  let num_cvcs ← get_bits 8
  let cvc_data ← cvcData len
  return ⟨num_cvcs, cvc_data⟩

/-- `parseCVTVer1` -/
def parseCVTVer1 (len : ℕ) : CvtRead CvtT2vx := do
  let (ids, num_descriptors) ← cvtHeader
  let ids ← cvtDescriptors num_descriptors ids
  let place ← cvtPlace
  let codefile ← counted_chars
  let cvcs ← cvtCvcs len
  return .ver1 ids place codefile cvcs

/-- `parseCVTVer2` -/
def parseCVTVer2 (len : ℕ) : CvtRead CvtT2vx := do
  let (ids, num_descriptors) ← cvtHeader
  let ids ← cvtDescriptors num_descriptors ids
  let num_of_objects ← get_bits 8
  let objects ← t2v2Objects num_of_objects 0
  let cvcs ← cvtCvcs len
  return .ver2 ids objects cvcs

/-- The version of a table. -/
def cvtVersion : CvtRead ℕ := do
  skip_bits 24
  lengthField
  get_bits 8

/-- `TableCVT_T2Vx`: a table is read from a buffer. -/
def tableCVT_T2Vx (buf : List UInt8) : Option CvtT2vx := do
  let (version, _) ← cvtVersion ⟨buf, 0⟩
  if version = 1 then
    let (cvt, _) ← parseCVTVer1 buf.length ⟨buf, 0⟩
    return cvt
  else if version = 2 then
    let (cvt, _) ← parseCVTVer2 buf.length ⟨buf, 0⟩
    return cvt
  else return .other version

/-- What the validation gets of it. -/
def CvtT2vx.table : CvtT2vx → TableCvt
  | .ver1 _ _ _ cvcs => ⟨.t2vx, 1, cvcs.num_cvcs, cvcs.cvc_data⟩
  | .ver2 _ _ cvcs => ⟨.t2vx, 2, cvcs.num_cvcs, cvcs.cvc_data⟩
  | .other version => ⟨.t2vx, version, 0, []⟩

end MediaFramework
