import MediaFramework.Rbi.ReTimestamp

/-!
# Trimming an ad (`RBIStreamProcessor::getInsertionData`)

An ad is cut off with the last video frame the spot has room for. From then on its
audio is cut as well, at the first AC-3 frame that would begin behind that video
frame: `getAC3FrameSizeDuration` reads the size and the duration of the frames off
the first one, `getAC3FramePTS` keeps count of the bytes of the current frame, and
what a packet holds of the first frame too many is stuffed.
-/

namespace MediaFramework

/-- `AC3FrameInfo` -/
structure Ac3FrameInfo where
  duration : ℤ
  size : ℤ
  /-- the bytes read of the current frame -/
  byteCnt : ℤ
  syncByteDetectedInPacket : Bool
  pesPacketLength : ℕ
  pesHeaderDataLen : ℕ
  frameCnt : ℤ
  deriving DecidableEq

/-- The fields of `RBIStreamProcessor` that trimming is decided on. -/
structure AdTrim where
  maxAdVideoFrameCountReached : Bool
  maxAdAudioFrameCountReached : Bool
  lastAdVideoFrameDetected : Bool
  determineAdAC3FrameSizeDuration : Bool
  adVideoFrameCount : UInt32
  netReplaceableVideoFramesCnt : UInt32
  currentAdAudioPTS : ℤ
  adAC3FrameInfo : Ac3FrameInfo
  deriving DecidableEq

namespace Packet

variable (p : Packet)

/-- The payload begins with a PES start code. -/
def pesStartCode : Bool :=
  p p.payload == 0x00 && p (p.payload + 1) == 0x00 && p (p.payload + 2) == 0x01

/-- An AC-3 sync word. -/
def syncWord (i : ℕ) : Bool := p i == 0x0B && p (i + 1) == 0x77

/-- Where sync words are looked for: from `offset` on, up to five bytes before the
end of the packet. -/
def syncWords (offset packetSize : ℕ) : List ℕ :=
  (List.range' offset (packetSize - 5 - offset)).filter p.syncWord

/-- The last `byteCnt` bytes of the packet become `0xFF`. More than 188 reach in front of
the packet. -/
def stuff (byteCnt : ℤ) : Packet := fun i =>
  if 188 - byteCnt ≤ i ∧ i < 188 then 0xFF else p i

end Packet

/-! ## AC-3 frames -/

/-- `nominalBitrateInkbps` -/
def nominalBitrateInkbps : List ℤ :=
  [32, 40, 48, 56, 64, 80, 96, 112, 128, 160, 192, 224, 256, 320, 384, 448, 512, 576, 640]

namespace Ac3FrameInfo

/-- What a sync word at `i` says of its frame. The products with a sampling time are
`double`s, cut off. A bit rate code behind the table reads what lies there. -/
def readFrame (frameInfo : Ac3FrameInfo) (p : Packet) (i : ℕ) : Ac3FrameInfo :=
  let fscod := (p (i + 4)).toNat >>> 6 &&& 0x3
  let frmsizecod := (p (i + 4)).toNat &&& 0x3F
  let nominal := nominalBitrateInkbps.getD (frmsizecod >>> 1) 0
  match fscod with
  | 0 => { frameInfo with duration := 2880, size := 32 * nominal / 8 }
  | 1 => { frameInfo with
      duration := 3134
      size := 3483 * nominal / 800 + (if frmsizecod &&& 0x1 = 0 then 0 else 1) }
  | 2 => { frameInfo with duration := 4320, size := 48 * nominal / 8 }
  | _ => frameInfo

/-- `getAC3FrameSizeDuration` -/
def getAC3FrameSizeDuration (frameInfo : Ac3FrameInfo) (p : Packet) (offset packetSize : ℕ) :
    Ac3FrameInfo :=
  (p.syncWords offset packetSize).foldl (fun info i => info.readFrame p i)
    { frameInfo with duration := -1, size := -1, byteCnt := 0 }

/-- `getAC3FramePTS` of a packet in which a PES packet begins. -/
def startPES (info : Ac3FrameInfo) (p : Packet) (packetSize : ℕ) : Ac3FrameInfo × ℤ :=
  let pesHeaderDataLen := (p (p.payload + 8)).toNat
  let info :=
    { info with
      syncByteDetectedInPacket := false
      pesPacketLength := (p (p.payload + 4)).toNat <<< 8 ||| (p (p.payload + 5)).toNat
      pesHeaderDataLen := pesHeaderDataLen
      frameCnt := 0 }
  let audioPTS : ℤ := if p.hasPts then p.readTimeStamp (p.payload + 9) else -1
  ((p.syncWords (p.payload + (9 + pesHeaderDataLen)) packetSize).foldl
    (fun info i => { info with byteCnt := 188 - i, syncByteDetectedInPacket := true }) info,
    audioPTS)

/-- `getAC3FramePTS`, which also counts the bytes of the current frame. -/
def getAC3FramePTS (info : Ac3FrameInfo) (p : Packet) (packetSize : ℕ) (currentAudioPTS : ℤ) :
    Ac3FrameInfo × ℤ :=
  let info := { info with syncByteDetectedInPacket := false }
  if p.hasPayload then
    if p.payloadStart then
      if p.pesStartCode then info.startPES p packetSize else (info, -1)
    else
      let info := { info with byteCnt := info.byteCnt + (188 - p.payload) }
      if info.byteCnt ≥ info.size then
        ({ info with
          byteCnt := info.byteCnt - info.size
          frameCnt := info.frameCnt + 1
          syncByteDetectedInPacket := true }, currentAudioPTS + info.duration)
      else (info, -1)
  else (info, -1)

end Ac3FrameInfo

/-! ## Cutting off -/

namespace AdTrim

/-- The first audio packet after the last video frame that begins a PES packet tells
the size and the duration of the AC-3 frames. -/
def measure (t : AdTrim) (p : Packet) (packetSize : ℕ) : AdTrim :=
  if t.determineAdAC3FrameSizeDuration && p.hasPayload && p.payloadStart && p.pesStartCode then
    let offset := p.payload + (9 + (p (p.payload + 8)).toNat)
    let info := t.adAC3FrameInfo.getAC3FrameSizeDuration p offset packetSize
    { t with
      adAC3FrameInfo := info
      determineAdAC3FrameSizeDuration := !(decide (0 < info.duration) && decide (0 < info.size)) }
  else t

/-- The audio is cut off in the packet that has the first frame behind the last
video frame. -/
def trimAudio (t : AdTrim) (p : Packet) (packetSize : ℕ) (lastAdVideoFramePTS : ℤ) :
    AdTrim × Packet :=
  let t := t.measure p packetSize
  if t.determineAdAC3FrameSizeDuration then (t, p)
  else
    let (info, audioPTS) := t.adAC3FrameInfo.getAC3FramePTS p packetSize t.currentAdAudioPTS
    let t := { t with adAC3FrameInfo := info }
    if audioPTS = -1 then (t, p)
    else
      let t := { t with currentAdAudioPTS := audioPTS }
      if audioPTS ≥ lastAdVideoFramePTS then
        ({ t with maxAdAudioFrameCountReached := true }, p.stuff info.byteCnt)
      else (t, p)

/-- The frame the ad ends with: the last of its exit frames that the spot has room
for, if the end is near, and whether that is the last of all. -/
def exitFrame (t : AdTrim) (exitFrames : List UInt32) : UInt32 × Bool :=
  let net := t.netReplaceableVideoFramesCnt
  match exitFrames.reverse with
  | [] => (net, t.lastAdVideoFrameDetected)
  | last :: others =>
    if t.adVideoFrameCount > net - 30 then
      if last ≤ net then (last, true)
      else ((others.find? fun frame => frame ≤ net).getD net, t.lastAdVideoFrameDetected)
    else (net, t.lastAdVideoFrameDetected)

/-- A frame of the ad's video begins: is it the last one? -/
def countFrame (t : AdTrim) (clock : AdClock) (p : Packet) (exitFrames : List UInt32) :
    AdTrim × AdClock :=
  let t := { t with adVideoFrameCount := t.adVideoFrameCount + 1 }
  let (lastAdVideoFrameNumber, detected) := t.exitFrame exitFrames
  let t := { t with lastAdVideoFrameDetected := detected }
  if (t.adVideoFrameCount > lastAdVideoFrameNumber ∨
      t.adVideoFrameCount = lastAdVideoFrameNumber ∧ detected = true) ∧ p.pesStartCode = true then
    let t := { t with adVideoFrameCount := t.adVideoFrameCount - 1 }
    if p.hasPts then
      ({ t with maxAdVideoFrameCountReached := true },
        { clock with
          -- `(long long)( 90000 / VIDEO_FRAME_RATE )`
          lastAdVideoFramePTS :=
            p.readTimeStamp (p.payload + 9) + (if detected then 1501 else 0)
          adVideoPktsDelayed := false
          adVideoPktsDelayedPCRBased := false
          adAudioPktsDelayed := false
          adVideoPktsTooFast := false })
    else (t, clock)
  else (t, clock)

/-- What trimming does with a packet of the ad's video. -/
def trimVideo (t : AdTrim) (clock : AdClock) (p : Packet) (exitFrames : List UInt32) :
    AdTrim × AdClock :=
  if !t.maxAdVideoFrameCountReached && p.payloadStart then t.countFrame clock p exitFrames
  else (t, clock)

end AdTrim

end MediaFramework
