import NitrokeyFido2.Hid.U2f

/-!
`ctaphid_handle_packet` and the vendor commands.

A message that is complete is processed at once. While a request in it waits
for the user, the device hands the packets that arrive to
`ctaphid_handle_packet` again.
-/

namespace NitrokeyFido2.Hid

open Ctap

variable (env : Env)

/-- What the firmware reads off its hardware while it handles a packet. -/
structure Readings where
  /-- `millis()`. -/
  now : UInt32
  /-- What `ctap_get_status_data` fills in. -/
  button : Buf 8

/-! ### Receiving -/

/-- What is left to do for a packet. -/
inductive Received
  | done
  | dispatch
  | exited
  deriving DecidableEq

/-- The message that an error answers for good: a packet that begins a message
is answered itself, a sequence error answers the message that is
buffered. -/
def Layer.answeredBy (s : Layer) (pkt : Packet) : Option ℕ :=
  if pkt.isCont then
    (if pkt.cid = ctaphidBroadcastCid then none else some s.buffer.message)
  else some s.messages

/-- `ctaphid_handle_packet` up to its switch. -/
def Layer.receive (s : Layer) (now : UInt32) (pkt : Packet) : Received × Layer :=
  let s := if pkt.isCont then s else { s with messages := s.messages + 1 }
  let (status, s) := s.bufferPacket now pkt
  let cmd := match status with
    | .ignore => 0
    | .error code => code
    | _ => s.buffer.cmd
  let s := { s with wb := { WriteBuffer.zero with cid := pkt.cid, cmd } }
  match status with
  | .ignore => (.done, s)
  | .error code =>
      let answers := s.answeredBy pkt
      let s := { s with cids := cidDel pkt.cid s.cids }
      let s := if code = ctap1ErrInvalidSeq then { s with buffer := s.buffer.reset } else s
      (.done, s.sendError pkt.cid code answers)
  | .buffer .buffering => (.done, s)
  | .buffer _ => (.dispatch, s)
  | .exited => (.exited, s)

/-! ### Replies -/

/-- Send through the static write buffer. -/
def Layer.reply (s : Layer) (message bcnt : ℕ) (pieces : List (List UInt8)) : Layer :=
  let r := WriteBuffer.writeAll { s.wb with bcnt } pieces
  { s with wb := r.2, sent := s.sent ++ [⟨r.1, some message⟩] }

def reply (message bcnt : ℕ) (pieces : List (List UInt8)) : WorldM Unit :=
  modifyHid fun s => s.reply message bcnt pieces

/-- Reply to a CBOR or MSG message, on its own channel. -/
def replyTo (p : Processing) (bcnt : ℕ) (pieces : List (List UInt8)) : WorldM Unit := do
  modifyHid fun s => { s with wb := { s.wb with bcnt := bcnt, cid := p.cid, cmd := p.cmd } }
  reply p.message bcnt pieces

def sendError (p : Processing) (code : UInt8) : WorldM Unit :=
  modifyHid fun s => s.sendError p.cid code (some p.message)

def setBusy (b : Bool) : WorldM Unit := modifyHid fun s => { s with isBusy := b }

/-- `device_set_status`, which the authenticator asks for. -/
def World.setStatus (w : World) (st : HidStatus) : World := w.withHid (w.hid.setStatus st)

/-! ### Vendor commands -/

/-- `solo_is_locked`. -/
def soloIsLocked (settings : UInt64) : Bool :=
  (settings >>> 32).toUInt32 = 0xaa551e79 && settings &&& 2 ≠ 0

/-- What a vendor command with a length in its first byte answers with. -/
def answerLength (w : World) (fallback : ℕ) : ℕ :=
  let n := ((w.message 0 1).getD 0 0).toNat
  if n = 0 then fallback else n

/-- `ctaphid_custom_command`: whether the command is one. -/
def ctaphidCustomCommand (rd : Readings) (p : Processing) : HidM Bool := do
  if p.cmd = ctaphidEnterboot then do
    let ret ← onAuth (ctapUserPresenceTestExtended 10000)
    if ret ≠ 0 then do
      onDevice (note (.carriedOut .enterboot))
      reply p.message 0 []
      pure true
    else pure false
  else if p.cmd = ctaphidReboot then do
    let ret ← onAuth (ctapUserPresenceTestExtended 10000)
    if ret ≠ 0 then do
      onDevice (note (.carriedOut .reboot))
      (Proc.stop .halted : WorldM Bool)
    else do
      reply p.message 0 []
      pure true
  else if p.cmd = ctaphidGetrng then do
    let w ← (Proc.get : WorldM World)
    let n := answerLength w 57
    let rng ← onDevice (ctapGenerateRng env n)
    writeMessage 0 rng.bytes
    reply p.message n [rng.bytes]
    pure true
  else if p.cmd = ctaphidGetstatus then do
    let w ← (Proc.get : WorldM World)
    let n := answerLength w 8
    writeMessage 0 (List.replicate n 0)
    writeMessage 0 rd.button.bytes
    let w ← (Proc.get : WorldM World)
    reply p.message n [w.message 0 n]
    pure true
  else if p.cmd = ctaphidGetversion then do
    let w ← (Proc.get : WorldM World)
    writeMessage 0 (env.soloVersion.bytes ++ [if soloIsLocked w.settings then 1 else 0])
    let w ← (Proc.get : WorldM World)
    reply p.message 4 [w.message 0 4]
    pure true
  else if p.cmd = 0x99 then do
    (Proc.modify fun w => { w with settings := w.settings ||| 2 } : WorldM Unit)
    reply p.message 0 []
    pure true
  else pure false

/-! ### Dispatch -/

def beginProcessing (p : Processing) : WorldM Unit :=
  modifyHid fun s => { s with processing := p :: s.processing }

def endProcessing : WorldM Unit := modifyHid fun s => { s with processing := s.processing.tail }

/-- The end of `ctaphid_handle_packet`, which frees the channel and the
buffer. -/
def finishDispatch (p : Processing) : WorldM UInt8 := do
  modifyHid fun s => { s with cids := cidDel p.cid s.cids, buffer := s.buffer.reset }
  endProcessing
  let w ← Proc.get
  pure (if w.hid.isBusy then 0 else p.cmd)

/-- `ctap_request` on the message in `ctap_buffer`. -/
def handleCbor (p : Processing) (len : ℕ) : HidM Unit := do
  let w ← (Proc.get : WorldM World)
  let r ← onAuth (ctapRequest env (w.message 0 len))
  replyTo p (r.data.length + 1) [[r.status], r.data]

/-- `u2f_request` on the message in `ctap_buffer`. -/
def handleMsg (p : Processing) : HidM Unit := do
  let data ← u2fRequest env
  replyTo p data.length [data]

/-- A CBOR or MSG message, which may be refused without an end. -/
def dispatchTransaction (p : Processing) (len : ℕ) (request : HidM Unit) : HidM UInt8 := do
  let w ← (Proc.get : WorldM World)
  if len = 0 then do
    sendError p ctap1ErrInvalidLength
    pure 0
  else if w.hid.isBusy then do
    sendError p ctap1ErrChannelBusy
    pure 0
  else do
    setBusy true
    beginProcessing { p with transaction := true }
    request
    setBusy false
    finishDispatch p

/-- The switch of `ctaphid_handle_packet`. -/
def dispatch (rd : Readings) (p : Processing) (len : ℕ) : HidM UInt8 :=
  if p.cmd = ctaphidInitCmd then (Proc.stop .halted : WorldM UInt8)
  else if p.cmd = ctaphidCbor then dispatchTransaction p len (handleCbor env p len)
  else if p.cmd = ctaphidMsg then dispatchTransaction p len (handleMsg env p)
  else do
    beginProcessing p
    (if p.cmd = ctaphidPing then do
      let w ← (Proc.get : WorldM World)
      reply p.message len [w.message 0 len]
    else if p.cmd = ctaphidWink then reply p.message 0 []
    else if p.cmd = ctaphidCancel then setBusy false
    else do
      let known ← ctaphidCustomCommand env rd p
      if known then setBusy false else sendError p ctap1ErrInvalidCommand : HidM Unit)
    finishDispatch p

/-- `ctaphid_handle_packet`. -/
def ctaphidHandlePacket (rd : Readings) (pkt : Packet) : HidM UInt8 := do
  let w ← (Proc.get : WorldM World)
  let (received, s) := w.hid.receive rd.now pkt
  modifyHid fun _ => s
  match received with
  | .done => pure 0
  | .exited => (Proc.stop .halted : WorldM UInt8)
  | .dispatch =>
      dispatch env rd ⟨s.buffer.message, pkt.cid, s.buffer.cmd, false⟩ s.buffer.bcnt

end NitrokeyFido2.Hid
