/-
  `MediaService`: the objects and the threads of the calls.

  The recorder and the player are made once and restarted for each call; each makes a new
  encoder or decoder then, whose thread runs beside it.  Here is what starts, stops and ends the
  threads, and the fields that they share; what they do with the sound is in the modules of the
  four classes.  The operations of the service are atomic, and a turn of a thread has about one
  access to what is shared.  A thread that an exception ends is where a thread that returns is.
-/
import JaySip.Machine
import JaySip.Java.Threads
import JaySip.Media.Codec
import Mathlib.Tactic.Simps.Basic

namespace JaySip

open Java

/-! ## Objects -/

/-- A remote address and port. -/
structure Peer where
  address : Str
  port : ℤ
  deriving DecidableEq, Repr

/-- `DatagramSocket`: the peer that it is connected to. -/
structure DatagramSocket where
  peer : Option Peer
  deriving DecidableEq, Repr

/-- The fields of `LanAudioRecord`.  `udp_socket` tells whether it has the socket,
    `initialized` and `recording` are the state of `m_in_rec`, and of `rtp_socket` there is
    the remote peer. -/
structure LanAudioRecord where
  udp_socket : Bool
  destip : Str
  destport : ℤ
  codectype : ℤ
  mSampleRate : ℤ
  initialized : Bool
  recording : Bool
  rtp_socket : Option Peer
  encoder : Option ℕ
  runner : Option ℕ
  deriving DecidableEq, Repr

/-- The fields of `LanAudioPlay`; of `m_out_trk` there is the sample rate. -/
structure LanAudioPlay where
  udp_socket : Bool
  codectype : ℤ
  m_out_trk : Option ℤ
  decoder : Option ℕ
  runner : Option ℕ
  deriving DecidableEq, Repr

/-- What `Encoder` and `Decoder` have in common; `m_q` is the length of the queue. -/
structure Coding where
  codeccode : ℤ
  m_ec : Bool
  leftSize : ℤ
  m_q : ℕ
  runner : Option ℕ
  deriving DecidableEq, Repr

/-- What the threads share: the fields of `MediaService`, the encoders and decoders made so far,
    the native codecs, and the two counters. -/
structure Media where
  udp_socket : Option DatagramSocket
  m_ec : Bool
  m_iRecord : Option LanAudioRecord
  m_iPlay : Option LanAudioPlay
  encoders : List Coding
  decoders : List Coding
  natives : Natives Unit Unit
  num_recv : ℕ
  num_send : ℕ

/-! ## Places -/

/-- Where `LanAudioRecord.run` is: before it resolves `destip`; reads `destport`; stores
    `rtp_socket`; makes the encoder; starts it; starts the device; tests `runner`; reads; sends;
    stops the device; stops the encoder; or it has ended. -/
inductive RecorderRun where
  | starting
  | connecting (address : Str)
  | storing (peer : Peer)
  | creating | waking | recording | testing | working | sending | stopping | releasing | ended
  deriving DecidableEq, Repr

/-- Where `LanAudioPlay.run` is: before it makes the decoder; starts it; receives for the first
    time; receives what is waiting; tests `runner`; receives; hands a payload on; or it has
    ended. -/
inductive PlayerRun where
  | starting | waking | receiving | emptying | testing | listening
  | handing (size : ℤ)
  | ended
  deriving DecidableEq, Repr

/-- Where the `run` of an encoder or a decoder is: before it tests `runner`; while it waits;
    before it works; before it frees the encoder; or it has ended. -/
inductive CodingRun where
  | testing | waiting | working | freeing | ended
  deriving DecidableEq, Repr

/-- A thread and its place.  A recorder and a player also have the number of the encoder or
    decoder whose `startThread` they have called: no method reads it. -/
inductive MediaThread where
  | recorder (run : RecorderRun) (encoder : Option ℕ)
  | player (run : PlayerRun) (decoder : Option ℕ)
  | encoder (e : ℕ) (run : CodingRun)
  | decoder (d : ℕ) (run : CodingRun)
  deriving DecidableEq, Repr

/-- The service and its threads. -/
abbrev MediaService := Threads Media MediaThread

/-- What the environment decides in a turn: whether the microphone has samples; who sent the
    datagram that arrives (`none` if the receive times out), and the size of its payload
    (`none` if it repeats a sequence number); whether the track or the codec throws. -/
structure Chance where
  reads : Bool
  source : Option Peer
  payload : Option ℤ
  throws : Bool
  deriving DecidableEq, Repr

/-! ## Codings -/

namespace Coding

/-- `new Encoder(codeccode)` and `new Decoder(codeccode)`. -/
def create (codeccode : ℤ) (m_ec : Bool) : Coding := ⟨codeccode, m_ec, 0, 0, none⟩

/-- `startThread`, which starts thread `n` if there is none. -/
def startThread (n : ℕ) (c : Coding) : Coding :=
  if c.runner = none then { c with runner := some n } else c

def stopThread (c : Coding) : Coding := { c with runner := none }

def isIdle (c : Coding) : Bool := c.leftSize = 0

def putData (size : ℤ) (c : Coding) : Coding := { c with leftSize := size }

/-- `getData`, if the queue has something: it is one shorter. -/
def getData (c : Coding) : Coding := { c with m_q := c.m_q - 1 }

/-- A frame is coded, and the mailbox empty. -/
def coded (c : Coding) : Coding := { c with m_q := c.m_q + 1, leftSize := 0 }

end Coding

/-- The `close` of the native codecs. -/
def Codec.close (codeccode : ℤ) (n : Natives Unit Unit) : Natives Unit Unit :=
  if codeccode = 101 then { n with speex_open := n.speex_open - 1 }
  else if codeccode = 9 then { n with g722_open := n.g722_open - 1 }
  else n

/-- `codec_open` in the native library of the codec. -/
def Natives.codec_open (codeccode : ℤ) (n : Natives Unit Unit) : ℕ :=
  if codeccode = 101 then n.speex_open else if codeccode = 9 then n.g722_open else 0

/-! ## Recorder and player -/

namespace Media

variable (m : Media)

@[simps]
def setRecord (r : LanAudioRecord) : Media := { m with m_iRecord := some r }

@[simps]
def setPlay (p : LanAudioPlay) : Media := { m with m_iPlay := some p }

/-- A method of encoder `e`. -/
@[simps]
def onEncoder (e : ℕ) (f : Coding → Coding) : Media := { m with encoders := m.encoders.modify e f }

/-- A method of decoder `d`. -/
@[simps]
def onDecoder (d : ℕ) (f : Coding → Coding) : Media := { m with decoders := m.decoders.modify d f }

/-- The encoder that the recorder's field refers to. -/
def encoderOf (r : LanAudioRecord) : Option (ℕ × Coding) :=
  r.encoder.bind fun e => m.encoders[e]?.map fun o => (e, o)

/-- The decoder that the player's field refers to. -/
def decoderOf (p : LanAudioPlay) : Option (ℕ × Coding) :=
  p.decoder.bind fun d => m.decoders[d]?.map fun o => (d, o)

/-- A turn in which the thread only goes on. -/
@[simps]
def goes (place : MediaThread) : Turn Media MediaThread := ⟨m, place, none⟩

/-- `encoder = new Encoder(codectype)`. -/
@[simps]
def newEncoder (r : LanAudioRecord) : Media :=
  { m with
    m_iRecord := some { r with encoder := some m.encoders.length }
    encoders := m.encoders ++ [Coding.create r.codectype m.m_ec]
    natives := Codec.init r.codectype m.natives }

/-- `decoder = new Decoder(codectype)`. -/
@[simps]
def newDecoder (p : LanAudioPlay) : Media :=
  { m with
    m_iPlay := some { p with decoder := some m.decoders.length }
    decoders := m.decoders ++ [Coding.create p.codectype m.m_ec]
    natives := Codec.init p.codectype m.natives }

/-- `rtp_socket.send`: there is no socket, or it is connected to another peer. -/
def rejects (r : LanAudioRecord) : Bool :=
  match r.udp_socket, m.udp_socket, r.rtp_socket with
  | true, some s, some p => s.peer ≠ none ∧ s.peer ≠ some p
  | _, _, _ => true

/-- `rtp_socket.receive`: it connects the socket, or it waits on when the datagram comes from
    another peer than the socket's (`none`). -/
def receive (source : Option Peer) : Option Media :=
  match source, m.udp_socket with
  | none, _ => some m
  | some p, some ⟨none⟩ => some { m with udp_socket := some ⟨some p⟩ }
  | some p, some ⟨some q⟩ => if p = q then some m else none
  | some _, none => none

/-- A turn of thread `t`, in `LanAudioRecord.run`. -/
def recorderTurn (getByName : Str → Option Str) (c : Chance) (t n : ℕ) (r : LanAudioRecord)
    (woken : Option ℕ) : RecorderRun → Turn Media MediaThread
  | .starting =>
    match getByName r.destip with
    | some address => m.goes (.recorder (.connecting address) woken)
    | none => m.goes (.recorder .creating woken)
  | .connecting address => m.goes (.recorder (.storing ⟨address, r.destport⟩) woken)
  | .storing peer => (m.setRecord { r with rtp_socket := some peer }).goes (.recorder .creating woken)
  | .creating => (m.newEncoder r).goes (.recorder .waking woken)
  | .waking =>
    match m.encoderOf r with
    | some (e, o) => ⟨m.onEncoder e (·.startThread n), .recorder .recording (some e),
        if o.runner = none then some (.encoder e .testing) else none⟩
    | none => m.goes (.recorder .ended woken)
  | .recording =>
    if r.initialized then
      (m.setRecord { r with recording := true }).goes (.recorder .testing woken)
    else m.goes (.recorder .ended woken)
  | .testing =>
    m.goes (.recorder (if r.runner = some t then .working else .stopping) woken)
  | .working =>
    match m.encoderOf r with
    | some (e, o) =>
      if ¬ c.reads then m.goes (.recorder .testing woken)
      else (if o.isIdle then m.onEncoder e (·.putData 160) else m).goes
        (.recorder (if o.m_q = 0 then .testing else .sending) woken)
    | none => m.goes (.recorder .ended woken)
  | .sending =>
    match m.encoderOf r with
    | some (e, o) => (m.onEncoder e (·.getData)).goes
        (.recorder (if o.m_q = 0 ∨ m.rejects r then .ended else .testing) woken)
    | none => m.goes (.recorder .ended woken)
  | .stopping => (m.setRecord { r with recording := false }).goes (.recorder .releasing woken)
  | .releasing =>
    match m.encoderOf r with
    | some (e, _) => (m.onEncoder e (·.stopThread)).goes (.recorder .ended woken)
    | none => m.goes (.recorder .ended woken)
  | .ended => m.goes (.recorder .ended woken)

/-- `rtp_socket.receive(rtp_packet)`, and what comes behind it. -/
def receiving (c : Chance) (p : LanAudioPlay) (run : PlayerRun) (woken : Option ℕ)
    (next : PlayerRun) : Turn Media MediaThread :=
  if p.udp_socket then
    match m.receive c.source with
    | some m => m.goes (.player next woken)
    | none => m.goes (.player run woken)
  else m.goes (.player .ended woken)

/-- A turn of thread `t`, in `LanAudioPlay.run`. -/
def playerTurn (c : Chance) (t n : ℕ) (p : LanAudioPlay) (woken : Option ℕ) :
    PlayerRun → Turn Media MediaThread
  | .starting => (m.newDecoder p).goes (.player .waking woken)
  | .waking =>
    match m.decoderOf p with
    | some (d, o) => ⟨m.onDecoder d (·.startThread n), .player .receiving (some d),
        if o.runner = none then some (.decoder d .testing) else none⟩
    | none => m.goes (.player .ended woken)
  | .receiving => m.receiving c p .receiving woken
      (if p.m_out_trk = none ∨ c.throws then .ended else .emptying)
  | .emptying => m.receiving c p .emptying woken (if c.source = none then .testing else .emptying)
  | .testing => m.goes (.player (if p.runner = some t then .listening else .ended) woken)
  | .listening => m.receiving c p .listening woken (c.payload.elim .testing .handing)
  | .handing size =>
    match m.decoderOf p with
    | some (d, o) =>
      if o.isIdle then
        if 0 ≤ size ∧ size ≤ 320 then
          (m.onDecoder d fun o => (o.putData size).getData).goes (.player .testing woken)
        else m.goes (.player .ended woken)
      else (m.onDecoder d (·.getData)).goes (.player .testing woken)
    | none => m.goes (.player .ended woken)
  | .ended => m.goes (.player .ended woken)

/-! ## Encoder and decoder -/

/-- `num_send++`, while frames go past the canceller. -/
@[simps]
def countSend (o : Coding) : Media :=
  { m with num_send :=
      if o.m_ec ∧ 0 < m.num_recv ∧ m.num_send < 20 then m.num_send + 1 else m.num_send }

/-- `num_recv++`, up to 20. -/
@[simps]
def countRecv (o : Coding) : Media :=
  { m with num_recv := if o.m_ec ∧ m.num_recv < 20 then m.num_recv + 1 else m.num_recv }

/-- `Encoder.free`. -/
@[simps]
def freeEncoder (o : Coding) : Media :=
  { m with num_send := 0, natives := Codec.close o.codeccode m.natives }

/-- A turn of thread `t`, in `Encoder.run`. -/
def encoderTurn (c : Chance) (t e : ℕ) (o : Coding) : CodingRun → Turn Media MediaThread
  | .testing => m.goes (.encoder e (if o.runner = some t then .waiting else .freeing))
  | .waiting => m.goes (.encoder e (if o.isIdle then .waiting else .working))
  | .working =>
    if c.throws then m.goes (.encoder e .ended)
    else ((m.countSend o).onEncoder e (·.coded)).goes (.encoder e .testing)
  | .freeing => (m.freeEncoder o).goes (.encoder e .ended)
  | .ended => m.goes (.encoder e .ended)

/-- A turn of thread `t`, in `Decoder.run`; it returns without `free`. -/
def decoderTurn (c : Chance) (t d : ℕ) (o : Coding) : CodingRun → Turn Media MediaThread
  | .testing => m.goes (.decoder d (if o.runner = some t then .waiting else .ended))
  | .waiting => m.goes (.decoder d (if o.isIdle then .waiting else .working))
  | .working =>
    if c.throws then m.goes (.decoder d .ended)
    else ((m.countRecv o).onDecoder d (·.coded)).goes (.decoder d .testing)
  | .freeing => m.goes (.decoder d .ended)
  | .ended => m.goes (.decoder d .ended)

/-- A turn of thread `t`, when `n` threads have been started. -/
def turn (getByName : Str → Option Str) (c : Chance) (t n : ℕ) (m : Media) :
    MediaThread → Turn Media MediaThread
  | .recorder run woken =>
    match m.m_iRecord with
    | some r => m.recorderTurn getByName c t n r woken run
    | none => m.goes (.recorder run woken)
  | .player run woken =>
    match m.m_iPlay with
    | some p => m.playerTurn c t n p woken run
    | none => m.goes (.player run woken)
  | .encoder e run =>
    match m.encoders[e]? with
    | some o => m.encoderTurn c t e o run
    | none => m.goes (.encoder e run)
  | .decoder d run =>
    match m.decoders[d]? with
    | some o => m.decoderTurn c t d o run
    | none => m.goes (.decoder d run)

end Media

/-! ## The service -/

/-- The arguments of `startAudio`. -/
structure AudioArgs where
  Destaddr : Str
  codecType : ℤ
  SampleRate : ℤ
  RtpPort : ℤ
  deriving DecidableEq, Repr

/-- What the platform decides in a call of `startAudio`: whether the port can be bound, and the
    device and the track be made. -/
structure Platform where
  bindThrows : Bool
  recordThrows : Bool
  initialized : Bool
  trackThrows : Bool
  deriving DecidableEq, Repr

namespace LanAudioRecord

/-- The constructor, which divides by the frame rate. -/
def create (socket : Bool) (a : AudioArgs) (e : Platform) : Option LanAudioRecord :=
  if a.SampleRate.tdiv 160 = 0 ∨ e.recordThrows then none
  else some ⟨socket, a.Destaddr, a.RtpPort, a.codecType, a.SampleRate, e.initialized, false, none,
    none, none⟩

def setDestIP (destip : Str) (r : LanAudioRecord) : LanAudioRecord := { r with destip := destip }

def setDestPort (port : ℤ) (r : LanAudioRecord) : LanAudioRecord := { r with destport := port }

def stopThread (r : LanAudioRecord) : LanAudioRecord := { r with runner := none }

end LanAudioRecord

namespace LanAudioPlay

/-- The constructor; it catches what the track throws, and has no socket then. -/
def create (socket : Bool) (a : AudioArgs) (e : Platform) : LanAudioPlay :=
  if e.trackThrows then ⟨false, a.codecType, none, none, none⟩
  else ⟨socket, a.codecType, some a.SampleRate, none, none⟩

def stopThread (p : LanAudioPlay) : LanAudioPlay := { p with runner := none }

end LanAudioPlay

namespace MediaService

variable (s : MediaService)

/-- Before the first call. -/
def init : MediaService :=
  ⟨⟨none, false, none, none, [], [], ⟨0, (), 0, ()⟩, 0, 0⟩, []⟩

/-- `startThread` of the recorder `r`. -/
def startRecord (r : LanAudioRecord) : MediaService :=
  if r.runner = none then
    s.start (fun n m => m.setRecord { r with runner := some n }) (.recorder .starting none)
  else ⟨s.shared.setRecord r, s.places⟩

/-- `startThread` of the player `p`. -/
def startPlay (p : LanAudioPlay) : MediaService :=
  if p.runner = none then
    s.start (fun n m => m.setPlay { p with runner := some n }) (.player .starting none)
  else ⟨s.shared.setPlay p, s.places⟩

/-- The socket is opened, and the canceller made. -/
def opened (e : Platform) : MediaService :=
  ⟨{ s.shared with
      udp_socket := s.shared.udp_socket.or (if e.bindThrows then none else some ⟨none⟩)
      m_ec := true },
    s.places⟩

/-- `startAudio` behind the recorder. -/
def startPlayer (a : AudioArgs) (e : Platform) : MediaService :=
  match s.shared.m_iPlay with
  | none => s.startPlay (LanAudioPlay.create s.shared.udp_socket.isSome a e)
  | some p => s.startPlay p.stopThread

/-- `startAudio` behind the canceller; the constructor's exception leaves it. -/
def startCall (a : AudioArgs) (e : Platform) : MediaService :=
  match s.shared.m_iRecord with
  | none =>
    match LanAudioRecord.create s.shared.udp_socket.isSome a e with
    | some r => (s.startRecord r).startPlayer a e
    | none => s
  | some r =>
    (s.startRecord ((r.stopThread.setDestIP a.Destaddr).setDestPort a.RtpPort)).startPlayer a e

def startAudio (a : AudioArgs) (e : Platform) : MediaService := (s.opened e).startCall a e

def stopAudio : MediaService :=
  ⟨{ s.shared with
      m_iRecord := s.shared.m_iRecord.map (·.stopThread)
      m_iPlay := s.shared.m_iPlay.map (·.stopThread) },
    s.places⟩

end MediaService

/-- What can happen: the two operations, and a turn of a thread. -/
inductive MediaInput where
  | startAudio (a : AudioArgs) (e : Platform)
  | stopAudio
  | turn (t : ℕ) (c : Chance)
  deriving DecidableEq, Repr

/-- The service from its first call on, when names resolve by `getByName`. -/
def media (getByName : Str → Option Str) : Machine MediaService MediaInput where
  init s := s = MediaService.init
  step s
    | .startAudio a e => s.startAudio a e
    | .stopAudio => s.stopAudio
    | .turn t c => Threads.turn (Media.turn getByName c) s t

end JaySip
