import Mathlib.Algebra.Group.Nat.Defs
import Mathlib.Logic.Function.Basic

/-!
# The PID map of an insertion (`RBIStreamProcessor::startInsertion`)

The streams of an ad take the place of those of the network: video in the order of the
PMTs, audio by language and type. What audio is left is replicated, or taken in the order
of the PMTs.

The passes go through arrays of components with indices of each other: the video of the
network with an index of the ad's, the audio of the ad with the index at which a search has
ended. `outside` is set when such an index is not in the array, and what is read there is in
`Memory`.
-/

namespace MediaFramework

namespace PidMap

/-- `RBIStreamComponent`: the language is a string of its own, or there is none. -/
structure Component where
  streamType : ℕ
  pid : ℕ
  associatedLanguage : Option (List UInt8)

/-- What a stream processor knows of its stream. The PIDs are numbers of 13 bits, 0 is that
of the PAT, and no two components share one. -/
structure Streams where
  m_havePAT : Bool
  m_havePMT : Bool
  m_videoComponents : List Component
  m_audioComponents : List Component
  nodup : ((m_videoComponents ++ m_audioComponents).map Component.pid).Nodup
  pid_pos : ∀ c ∈ m_videoComponents ++ m_audioComponents, 0 < c.pid
  pid_lt : ∀ c ∈ m_videoComponents ++ m_audioComponents, c.pid < 8192

/-- What is in memory behind the arrays of the network's components and of the ad's audio. -/
structure Memory where
  video : ℕ → Component
  audio : ℕ → Component
  adAudio : ℕ → Component

/-- What `startInsertion` builds, and what its passes leave to each other. -/
structure Build where
  m_pidMap : ℕ → ℕ
  m_needPayloadStart : ℕ → Bool
  m_pidIsMapped : ℕ → Bool
  videoMappedCount : ℕ
  audioMappedCount : ℕ
  /-- where the last search by language has ended -/
  j : ℕ
  m_replicateAudioSrcPid : ℤ
  m_replicateAudioStreamType : ℕ
  m_replicateAudioTargetPids : List ℕ
  /-- a component has been read that is not in the array -/
  outside : Bool

/-- `MAX_AUDIO_PID_COUNT` -/
def maxAudioPidCount : ℕ := 3

/-! ## Video, in the order of the PMTs -/

/-- The types agree, or both are MPEG-2. -/
def sameVideoType (a n : ℕ) : Bool :=
  a == n || ((n == 0x02 || n == 0x80) && (a == 0x02 || a == 0x80))

/-- A video stream of the ad takes the place of one of the network. -/
def Build.mapVideo (b : Build) (a n : Component) : Build :=
  { b with
    videoMappedCount := b.videoMappedCount + 1
    m_pidMap := Function.update b.m_pidMap a.pid (n.pid % 2 ^ 16) }

/-- The loop over the video of the ad, from the component `i` on, with the video of the network
from there on. It ends where the types do not agree. -/
def videoPass (mem : Memory) : List Component → List Component → ℕ → Build → Bool × Build
  | [], _, _, b => (true, b)
  | a :: as, n :: ns, i, b =>
    if sameVideoType a.streamType n.streamType then videoPass mem as ns (i + 1) (b.mapVideo a n)
    else (false, b)
  | a :: as, [], i, b =>
    let b := { b with outside := true }
    if sameVideoType a.streamType (mem.video i).streamType then
      videoPass mem as [] (i + 1) (b.mapVideo a (mem.video i))
    else (false, b)

/-! ## Audio, by language -/

/-- `strncmp` gives 0 for three characters. -/
def sameLanguage (x y : List UInt8) : Bool := x.take 3 == y.take 3

/-- "und" -/
def undeterminedAudioLang : List UInt8 := [117, 110, 100]

/-- The languages agree, or one of them is undetermined. -/
def languagesAgree : Option (List UInt8) → Option (List UInt8) → Bool
  | some x, some y =>
    sameLanguage x y || sameLanguage x undeterminedAudioLang || sameLanguage y undeterminedAudioLang
  | _, _ => false

/-- `!=` for the languages of two streams: the pointers are compared, and a string belongs to
one stream only. -/
def pointersDiffer (_ _ : Option (List UInt8)) : Bool := true

/-- The first reason to map a stream. -/
def byLanguage (b : Build) (a n : Component) : Bool :=
  b.m_pidMap a.pid == 0 && n.streamType == a.streamType &&
    languagesAgree a.associatedLanguage n.associatedLanguage

/-- The second one, for languages that do not agree. -/
def byType (b : Build) (a n : Component) : Bool :=
  b.m_pidMap a.pid == 0 && n.streamType == a.streamType &&
    (n.associatedLanguage.isNone || pointersDiffer a.associatedLanguage n.associatedLanguage)

/-- An audio stream of the ad takes the place of one of the network. -/
def Build.mapAudio (b : Build) (a n : Component) : Build :=
  { b with
    audioMappedCount := b.audioMappedCount + 1
    m_pidMap := Function.update b.m_pidMap a.pid (n.pid % 2 ^ 16)
    m_needPayloadStart := Function.update b.m_needPayloadStart a.pid true
    m_pidIsMapped := Function.update b.m_pidIsMapped n.pid true }

/-- The search through the network's audio for a stream of the ad with a language. -/
def languageStep (net : List Component) (b : Build) (a : Component) : Build :=
  if a.associatedLanguage.isSome then
    let j := net.findIdx fun n => !b.m_pidIsMapped n.pid && (byLanguage b a n || byType b a n)
    match net[j]? with
    | some n => { b with j }.mapAudio a n
    | none => { b with j }
  else b

/-! ## Audio that is left -/

/-- The stream that is replicated: the first one of the ad that has the type. -/
def Build.chooseSource (b : Build) (ad : List Component) (n : Component) : Build :=
  if b.m_replicateAudioSrcPid = -1 then
    match ad.find? fun a => n.streamType == a.streamType with
    | some a => { b with m_replicateAudioSrcPid := a.pid, m_replicateAudioStreamType := a.streamType }
    | none => b
  else b

/-- The source, if it has the type, is replicated onto a stream; there are not too many. -/
def Build.replicateOnto (b : Build) (n : Component) : Build :=
  if b.m_replicateAudioSrcPid ≠ -1 ∧ n.streamType = b.m_replicateAudioStreamType ∧
      b.audioMappedCount < maxAudioPidCount then
    { b with
      audioMappedCount := b.audioMappedCount + 1
      m_replicateAudioTargetPids := b.m_replicateAudioTargetPids ++ [n.pid] }
  else b

/-- Replication onto a stream of the network that no audio of the ad has. -/
def replicateStep (ad : List Component) (b : Build) (n : Component) : Build :=
  if ad.any fun a => b.m_pidMap a.pid == n.pid then b else (b.chooseSource ad n).replicateOnto n

/-- A stream is mapped in order. The stream of the network that is noted, and logged, is the
one at which the last search by language has ended. -/
def Build.mapByOrder (b : Build) (mem : Memory) (net : List Component) (a n : Component) : Build :=
  { b with
    audioMappedCount := b.audioMappedCount + 1
    m_pidMap := Function.update b.m_pidMap a.pid (n.pid % 2 ^ 16)
    m_needPayloadStart := Function.update b.m_needPayloadStart a.pid true
    m_pidIsMapped := Function.update b.m_pidIsMapped (net.getD b.j (mem.audio b.j)).pid true
    outside := b.outside || decide (net.length ≤ b.j) }

/-- The search in order for a stream of the ad, from a stream of the network on. The loop over
`l` asks the same each time; the component behind the last one is the one that is compared. -/
def orderSearch (mem : Memory) (net ad : List Component) (a : Component) :
    List Component → Build → Build × List Component
  | [], b => (b, [])
  | n :: rest, b =>
    let l := ad.findIdx fun _ => b.m_pidMap ad.length == n.pid
    let b := { b with outside := b.outside || decide (ad.length ≤ l) }
    if ad.length ≤ l ∧ (ad.getD l (mem.adAudio l)).streamType = n.streamType then
      (b.mapByOrder mem net a n, n :: rest)
    else orderSearch mem net ad a rest b

/-- The loop over the audio of the ad; the search goes on where it has ended. -/
def orderLoop (mem : Memory) (net ad : List Component) :
    List Component → List Component → Build → Build
  | [], _, b => b
  | a :: as, rest, b =>
    let r := if b.m_pidMap a.pid = 0 then orderSearch mem net ad a rest b else (b, rest)
    if net.length ≤ r.1.audioMappedCount then r.1 else orderLoop mem net ad as r.2 r.1

/-- The audio that is left. -/
def remainingAudio (mem : Memory) (net ad : List Component) (m_audioReplicationEnabled : Bool)
    (b : Build) : Build :=
  if b.audioMappedCount < net.length ∧ b.audioMappedCount < maxAudioPidCount then
    if m_audioReplicationEnabled then net.foldl (replicateStep ad) b
    else if (net.length : ℤ) - b.audioMappedCount < ad.length - b.audioMappedCount then
      orderLoop mem net ad ad net b
    else b
  else b

/-- One stream has components of a kind, and the other none. -/
def lacks (xs ys : List Component) : Bool := decide (0 < xs.length) && decide (ys.length = 0)

/-- An empty map. `stopInsertion` has taken away the targets of an earlier replication. -/
def Build.start (m_replicateAudioSrcPid : ℤ) (m_replicateAudioStreamType : ℕ) : Build where
  m_pidMap _ := 0
  m_needPayloadStart _ := false
  m_pidIsMapped _ := false
  videoMappedCount := 0
  audioMappedCount := 0
  j := 0
  m_replicateAudioSrcPid
  m_replicateAudioStreamType
  m_replicateAudioTargetPids := []
  outside := false

/-- The streams have video both or neither, and so with audio. -/
def compatible (net ad : Streams) : Bool :=
  !(lacks ad.m_videoComponents net.m_videoComponents ||
    lacks net.m_videoComponents ad.m_videoComponents ||
    lacks ad.m_audioComponents net.m_audioComponents ||
    lacks net.m_audioComponents ad.m_audioComponents)

/-- `startInsertion`, as far as the map goes. -/
def startInsertion (mem : Memory) (net ad : Streams) (m_audioReplicationEnabled : Bool)
    (m_replicateAudioSrcPid : ℤ) (m_replicateAudioStreamType : ℕ) : Bool × Build :=
  let b := Build.start m_replicateAudioSrcPid m_replicateAudioStreamType
  if compatible net ad then
    if net.m_havePAT && net.m_havePMT && ad.m_havePAT && ad.m_havePMT then
      let r := videoPass mem ad.m_videoComponents net.m_videoComponents 0 b
      if r.1 then
        (true, remainingAudio mem net.m_audioComponents ad.m_audioComponents
          m_audioReplicationEnabled
          (ad.m_audioComponents.foldl (languageStep net.m_audioComponents) r.2))
      else r
    else (false, b)
  else (false, b)

end PidMap

end MediaFramework
