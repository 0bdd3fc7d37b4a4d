import KmodCeph.Basic
import KmodCeph.Lib.Reached

namespace KmodCeph.Mds

open Lib

abbrev Tid := Nat

abbrev SessionId := Nat

def estale : Int := 116
def erestartsys : Int := 512

inductive SessionState where
  | new
  | opening
  | opened
  | hung
  | closing
  | restarting
  | reconnecting
deriving DecidableEq

structure MdsSession where
  mds : Nat
  state : SessionState
  waiting : List Tid
  unsafeList : List Tid

inductive DirectMode where
  | anyMds
  | randomMds
  | authMds
deriving DecidableEq

/-- Where the issuer of a request is. A submitted request has none that waits. -/
inductive Issuer where
  | callback
  | waiting
  | returned (err : Int) (aborted : Bool)
deriving DecidableEq

/-- `struct ceph_mds_request`. `result` is that of the reply in `r_reply_info`, `completed` is `r_completion`.
`sentOn` is the session whose mds has the request and owes an answer, `filling` a reply that
`handle_reply` has parsed and not finished with. -/
structure MdsRequest where
  directMode : DirectMode
  resendMds : Int
  numFwd : Nat
  session : Option SessionId
  err : Int
  aborted : Bool
  gotUnsafe : Bool
  gotSafe : Bool
  gotResult : Bool
  result : Int
  completed : Bool
  sentOn : Option SessionId
  filling : Bool
  issuer : Issuer

def MdsRequest.create (mode : DirectMode) (issuer : Issuer) : MdsRequest where
  directMode := mode
  resendMds := -1
  numFwd := 0
  session := none
  err := 0
  aborted := false
  gotUnsafe := false
  gotSafe := false
  gotResult := false
  result := 0
  completed := false
  sentOn := none
  filling := false
  issuer := issuer

structure MdsInfo where
  state : Int
  addr : Nat
  laggy : Bool
  exportTargets : List Nat
deriving DecidableEq

structure MdsMap where
  epoch : Nat
  info : List MdsInfo

namespace MdsMap

def stateDne : Int := 0
def stateReconnect : Int := 10
def stateActive : Int := 13

def maxMds (map : MdsMap) : Nat :=
  map.info.length

def getState (map : MdsMap) (mds : Nat) : Int :=
  match map.info[mds]? with
  | none => stateDne
  | some info => info.state

def getAddr (map : MdsMap) (mds : Nat) : Option Nat :=
  map.info[mds]?.map MdsInfo.addr

def isLaggy (map : MdsMap) (mds : Nat) : Bool :=
  match map.info[mds]? with
  | none => false
  | some info => info.laggy

def exportTargets (map : MdsMap) (mds : Nat) : List Nat :=
  match map.info[mds]? with
  | none => []
  | some info => info.exportTargets

end MdsMap

/-- `struct ceph_mds_client`. `requestTree` is in the order of `r_tid`; `calls` counts the calls of
`__do_request`, `relinked` is whether one of them has linked an `r_wait` that was on a list. Tids do not wrap, which
takes `2 ^ 64` requests. -/
structure MdsClient where
  mdsmap : MdsMap
  requestTree : List Tid
  lastTid : Tid
  request : Tid → MdsRequest
  waitingForMap : List Tid
  sessions : Nat → Option SessionId
  session : SessionId → MdsSession
  nextSession : SessionId
  stopping : Bool
  calls : Nat
  relinked : Bool

inductive Fault where
  | timedOut
  | noSession
  | noMessage (code : ℕ+)
deriving DecidableEq

/-- What a call of `__do_request` meets: the mds that the caps, the fragments or chance point to, and a fault. -/
structure Surroundings where
  choice : Int
  fault : Option Fault

inductive MdsStop where
  | bug
  | notEnabled

namespace MdsClient

def init : MdsClient where
  mdsmap := { epoch := 0, info := [] }
  requestTree := []
  lastTid := 0
  request _ := .create .anyMds .callback
  waitingForMap := []
  sessions _ := none
  session _ := { mds := 0, state := .new, waiting := [], unsafeList := [] }
  nextSession := 0
  stopping := false
  calls := 0
  relinked := false

def setReq (client : MdsClient) (tid : Tid) (change : MdsRequest → MdsRequest) : MdsClient :=
  { client with request := Function.update client.request tid (change (client.request tid)) }

def setSession (client : MdsClient) (id : SessionId) (change : MdsSession → MdsSession) : MdsClient :=
  { client with session := Function.update client.session id (change (client.session id)) }

def setState (client : MdsClient) (id : SessionId) (state : SessionState) : MdsClient :=
  client.setSession id fun session => { session with state := state }

def onWaitList (client : MdsClient) (tid : Tid) : Bool :=
  tid ∈ client.waitingForMap || (List.range client.nextSession).any fun id => tid ∈ (client.session id).waiting

def linkMap (client : MdsClient) (tid : Tid) : MdsClient :=
  { client with
    relinked := client.relinked || client.onWaitList tid
    waitingForMap := tid :: client.waitingForMap }

def linkSession (client : MdsClient) (tid : Tid) (id : SessionId) : MdsClient :=
  { client.setSession id fun session => { session with waiting := tid :: session.waiting } with
    relinked := client.relinked || client.onWaitList tid }

def unlink (client : MdsClient) (tid : Tid) : MdsClient :=
  { client with
    waitingForMap := client.waitingForMap.filter (· ≠ tid)
    session := fun id =>
      { client.session id with waiting := (client.session id).waiting.filter (· ≠ tid) } }

def unlinkUnsafe (client : MdsClient) (tid : Tid) : MdsClient :=
  { client with
    session := fun id =>
      { client.session id with unsafeList := (client.session id).unsafeList.filter (· ≠ tid) } }

def registerRequest (client : MdsClient) (req : MdsRequest) : MdsClient :=
  { client with
    lastTid := client.lastTid + 1
    requestTree := client.requestTree ++ [client.lastTid + 1]
    request := Function.update client.request (client.lastTid + 1) req }

def unregisterRequest (client : MdsClient) (tid : Tid) : MdsClient :=
  { client with requestTree := client.requestTree.erase tid }

def putRequestSession (client : MdsClient) (tid : Tid) : MdsClient :=
  client.setReq tid fun req =>
    { req with
      session := none
      sentOn := none }

def finish (client : MdsClient) (tid : Tid) (err : Int) : MdsClient :=
  client.setReq tid fun req =>
    { req with
      err := err
      completed := true }

def registerSession (client : MdsClient) (mds : Nat) (noMemory : Bool) : Except Int (SessionId × MdsClient) :=
  if client.mdsmap.maxMds ≤ mds then .error einval
  else if noMemory then .error enomem
  else
    .ok (client.nextSession,
      { client with
        sessions := Function.update client.sessions mds (some client.nextSession)
        session := Function.update client.session client.nextSession
          { mds := mds, state := .new, waiting := [], unsafeList := [] }
        nextSession := client.nextSession + 1 })

def lookupOrRegister (client : MdsClient) (mds : Nat) (noMemory : Bool) : Except Int (SessionId × MdsClient) :=
  match client.sessions mds with
  | some id => .ok (id, client)
  | none => client.registerSession mds noMemory

def unregisterSession (client : MdsClient) (id : SessionId) : Except MdsStop MdsClient := do
  haltIf (client.sessions (client.session id).mds ≠ some id) .bug
  return { client with sessions := Function.update client.sessions (client.session id).mds none }

/-- `__choose_mds`: the hint of an earlier forward, or where the inode of the request points. -/
def chooseMds (client : MdsClient) (tid : Tid) (choice : Int) : Int :=
  let hint := (client.request tid).resendMds
  if 0 ≤ hint ∧ ((client.sessions hint.toNat).isSome ∨ 0 < client.mdsmap.getState hint.toNat) then hint else choice

def openSession (client : MdsClient) (id : SessionId) : MdsClient :=
  match (client.session id).state with
  | .new | .closing => client.setState id .opening
  | _ => client

/-- `__prepare_send_request` and `ceph_con_send`. A replay sends the message it has. -/
def sendRequest (client : MdsClient) (tid : Tid) (id : SessionId) (fault : Option Fault) : MdsClient :=
  let sent := client.setReq tid fun req => { req with sentOn := some id }
  if (client.request tid).gotUnsafe then sent
  else
    match fault with
    | some (.noMessage code) => client.finish tid (-(code : Int))
    | _ => sent

def doRequest (around : Nat → Surroundings) (tid : Tid) (client : MdsClient) : MdsClient :=
  let now := around client.calls
  let client := { client with calls := client.calls + 1 }
  let req := client.request tid
  if req.err ≠ 0 ∨ req.gotResult then
    if req.aborted then client.unregisterRequest tid else client
  else if now.fault = some .timedOut then client.finish tid (-eio)
  else
    let client := client.putRequestSession tid
    let mds := client.chooseMds tid now.choice
    if mds < 0 ∨ client.mdsmap.getState mds.toNat < MdsMap.stateActive then
      client.linkMap tid
    else
      match client.lookupOrRegister mds.toNat (now.fault = some .noSession) with
      | .error code => client.finish tid (-code)
      | .ok (id, client) =>
        let client := client.setReq tid fun req => { req with session := some id }
        if (client.session id).state = .opened ∨ (client.session id).state = .hung then
          let client := client.setReq tid fun req => { req with resendMds := -1 }
          client.sendRequest tid id now.fault
        else
          (client.openSession id).linkSession tid id

/-- `__wake_requests` for requests that were taken off their list. -/
def wakeRequests (around : Nat → Surroundings) : List Tid → MdsClient → MdsClient
  | [], client => client
  | tid :: rest, client => wakeRequests around rest (client.doRequest around tid)

def wakeSession (around : Nat → Surroundings) (id : SessionId) (client : MdsClient) : MdsClient :=
  wakeRequests around (client.session id).waiting (client.setSession id fun session => { session with waiting := [] })

def wakeMap (around : Nat → Surroundings) (client : MdsClient) : MdsClient :=
  wakeRequests around client.waitingForMap { client with waitingForMap := [] }

def kickAll (around : Nat → Surroundings) (mds : Nat) : List Tid → MdsClient → MdsClient
  | [], client => client
  | tid :: rest, client =>
    let req := client.request tid
    let kicked := ¬ req.gotUnsafe ∧ req.session.map (fun id => (client.session id).mds) = some mds
    kickAll around mds rest (if kicked then (client.unlink tid).doRequest around tid else client)

def kickRequests (around : Nat → Surroundings) (mds : Nat) (client : MdsClient) : MdsClient :=
  kickAll around mds client.requestTree client

def submitRequest (around : Nat → Surroundings) (mode : DirectMode) (client : MdsClient) : MdsClient :=
  (client.registerRequest (.create mode .callback)).doRequest around (client.lastTid + 1)

def startRequest (around : Nat → Surroundings) (mode : DirectMode) (client : MdsClient) : MdsClient :=
  let tid := client.lastTid + 1
  let client := (client.registerRequest (.create mode .waiting)).doRequest around tid
  let err := (client.request tid).err
  if err ≠ 0 then
    (client.unregisterRequest tid).setReq tid fun req => { req with issuer := .returned err false }
  else client

end MdsClient

inductive WaitEnd where
  | completed
  | timedOut
  | killed
deriving DecidableEq

def WaitEnd.err : WaitEnd → Int
  | .completed => 0
  | .timedOut => -eio
  | .killed => -erestartsys

structure ReplyHead where
  safe : Bool
  result : Int

namespace MdsClient

def returnRequest (tid : Tid) (ending : WaitEnd) (client : MdsClient) : Except MdsStop MdsClient := do
  let req := client.request tid
  haltIf (req.issuer ≠ .waiting ∨ (ending = .completed ∧ ¬ req.completed)) .notEnabled
  return client.setReq tid fun req =>
    if req.gotResult then { req with issuer := .returned req.result false }
    else if ending.err < 0 then
      { req with
        err := ending.err
        aborted := true
        issuer := .returned ending.err true }
    else { req with issuer := .returned req.err false }

def ignoresReply (client : MdsClient) (id : SessionId) (tid : Tid) (head : ReplyHead) : Prop :=
  let req := client.request tid
  tid ∉ client.requestTree ∨ req.session ≠ some id ∨ (req.gotUnsafe ∧ ¬ head.safe) ∨ req.gotSafe

instance instDecidableIgnoresReply (client : MdsClient) (id : SessionId) (tid : Tid) (head : ReplyHead) :
    Decidable (client.ignoresReply id tid head) :=
  inferInstanceAs (Decidable (_ ∨ _ ∨ _ ∨ _))

/-- An ESTALE that `handle_reply` resends the request for; `auth` is the mds that `__choose_mds` finds then. -/
def resendsStale (client : MdsClient) (id : SessionId) (tid : Tid) (head : ReplyHead) (auth : Int) : Prop :=
  head.result = -estale ∧
    ((client.request tid).directMode ≠ .authMds ∨ (0 ≤ auth ∧ auth ≠ (client.session id).mds))

instance instDecidableResendsStale (client : MdsClient) (id : SessionId) (tid : Tid) (head : ReplyHead) (auth : Int) :
    Decidable (client.resendsStale id tid head auth) :=
  inferInstanceAs (Decidable (_ ∧ _))

/-- `handle_reply` until it has parsed the reply. A reply shorter than its head has none. -/
def handleReply (around : Nat → Surroundings) (id : SessionId) (tid : Tid) (head : Option ReplyHead) (auth : Int)
    (client : MdsClient) : MdsClient :=
  match head with
  | none => client
  | some head =>
    if client.ignoresReply id tid head then client
    else if client.resendsStale id tid head auth then
      (client.setReq tid fun req =>
        { req with
          resendMds := -1
          directMode := .authMds
          sentOn := none }).doRequest around tid
    else
      let client := client.setReq tid fun req =>
        if head.result = -estale then { req with resendMds := -1 } else req
      if head.safe then
        let gotUnsafe := (client.request tid).gotUnsafe
        let client := (client.setReq tid fun req => { req with gotSafe := true }).unregisterRequest tid
        if gotUnsafe then client.unlinkUnsafe tid
        else
          client.setReq tid fun req =>
            { req with
              result := head.result
              filling := true }
      else
        let client := client.setSession id fun session => { session with unsafeList := session.unsafeList ++ [tid] }
        client.setReq tid fun req =>
          { req with
            gotUnsafe := true
            result := head.result
            filling := true }

/-- The end of `handle_reply`; `err` is that of `parse_reply_info` or `ceph_fill_trace`. -/
def fillReply (tid : Tid) (err : Int) (client : MdsClient) : Except MdsStop MdsClient := do
  haltIf (¬ (client.request tid).filling) .notEnabled
  return client.setReq tid fun req =>
    let req :=
      if req.aborted then req
      else if err ≠ 0 then { req with err := err }
      else { req with gotResult := true }
    { req with
      filling := false
      completed := true }

def handleForward (around : Nat → Surroundings) (tid : Tid) (nextMds : BitVec 32) (fwdSeq : Nat) (client : MdsClient) :
    Except MdsStop MdsClient := do
  let req := client.request tid
  if tid ∉ client.requestTree then return client
  else if req.aborted then return client.unregisterRequest tid
  else if fwdSeq ≤ req.numFwd then return client
  else
    haltIf (req.err ≠ 0 ∨ req.gotResult) .bug
    let client := client.setReq tid fun req =>
      { req with
        numFwd := fwdSeq
        resendMds := nextMds.toInt }
    return (client.putRequestSession tid).doRequest around tid

def closeSession (id : SessionId) (client : MdsClient) : MdsClient :=
  match (client.session id).state with
  | .closing | .restarting | .reconnecting => client
  | _ => client.setState id .closing

end MdsClient

inductive SessionOp where
  | opened
  | close
  | other
deriving DecidableEq

inductive Reconnect where
  | noMemory
  | failed
  | sent

namespace MdsClient

def handleSession (around : Nat → Surroundings) (id : SessionId) (op : SessionOp) (client : MdsClient) :
    Except MdsStop MdsClient := do
  let client ← if op = .close then client.unregisterSession id else pure client
  let client := if (client.session id).state = .hung then client.setState id .opened else client
  match op with
  | .opened =>
    let client := client.setState id .opened
    let client := if client.stopping then client.closeSession id else client
    return client.wakeSession around id
  | .close => return (client.wakeSession around id).kickRequests around (client.session id).mds
  | .other => return client

def replayUnsafeRequests (id : SessionId) (client : MdsClient) : MdsClient :=
  (client.session id).unsafeList.foldl (fun client tid => client.sendRequest tid id none) client

def sendMdsReconnect (around : Nat → Surroundings) (id : SessionId) (outcome : Reconnect) (client : MdsClient) :
    MdsClient :=
  match outcome with
  | .noMemory => client
  | .failed => (client.setState id .reconnecting).replayUnsafeRequests id
  | .sent => ((client.setState id .reconnecting).replayUnsafeRequests id).wakeSession around id

def Moved (oldmap newmap : MdsMap) (mds : Nat) : Prop :=
  newmap.maxMds ≤ mds ∨ oldmap.getAddr mds ≠ newmap.getAddr mds

instance instDecidableMoved (oldmap newmap : MdsMap) (mds : Nat) : Decidable (Moved oldmap newmap mds) :=
  inferInstanceAs (Decidable (_ ∨ _))

def recoverSession (around : Nat → Surroundings) (outcome : Reconnect) (oldstate newstate : Int) (mds : Nat)
    (id : SessionId) (client : MdsClient) : MdsClient :=
  let client :=
    if (client.session id).state = .restarting ∧ MdsMap.stateReconnect ≤ newstate then
      client.sendMdsReconnect around id outcome
    else client
  if oldstate < MdsMap.stateActive ∧ MdsMap.stateActive ≤ newstate then client.kickRequests around mds else client

/-- One pass of the first loop of `check_new_map`. -/
def checkMds (around : Nat → Surroundings) (reconnects : Nat → Reconnect) (oldmap newmap : MdsMap)
    (client : MdsClient) (mds : Nat) : Except MdsStop MdsClient :=
  match client.sessions mds with
  | none => return client
  | some id => do
    let oldstate := oldmap.getState mds
    let newstate := newmap.getState mds
    if Moved oldmap newmap mds then
      let client ←
        if (client.session id).state = .opening then (client.wakeSession around id).unregisterSession id
        else pure (client.setState id .restarting)
      return (client.kickRequests around mds).recoverSession around (reconnects mds) oldstate newstate mds id
    else if oldstate = newstate then return client
    else return client.recoverSession around (reconnects mds) oldstate newstate mds id

def openExportTargetSession (noMemory : Nat → Bool) (client : MdsClient) (target : Nat) : MdsClient :=
  match client.lookupOrRegister target (noMemory target) with
  | .error _ => client
  | .ok (id, client) => client.openSession id

/-- One pass of the second loop of `check_new_map`. -/
def openExportTargets (noMemory : Nat → Nat → Bool) (newmap : MdsMap) (client : MdsClient) (mds : Nat) : MdsClient :=
  match client.sessions mds with
  | none => client
  | some id =>
    if ¬ newmap.isLaggy mds then client
    else
      match (client.session id).state with
      | .opened | .hung | .closing => (newmap.exportTargets mds).foldl (openExportTargetSession (noMemory mds)) client
      | _ => client

def checkNewMap (around : Nat → Surroundings) (reconnects : Nat → Reconnect) (noMemory : Nat → Nat → Bool)
    (newmap oldmap : MdsMap) (client : MdsClient) : Except MdsStop MdsClient := do
  let client ← (List.range oldmap.maxMds).foldlM (checkMds around reconnects oldmap newmap) client
  return (List.range newmap.maxMds).foldl (openExportTargets noMemory newmap) client

/-- `ceph_mdsc_handle_map` for a map that decodes; `epoch` is that of the message. -/
def handleMap (around : Nat → Surroundings) (reconnects : Nat → Reconnect) (noMemory : Nat → Nat → Bool)
    (epoch : Nat) (newmap : MdsMap) (client : MdsClient) : Except MdsStop MdsClient := do
  if epoch ≤ client.mdsmap.epoch then return client
  else
    let checked ← { client with mdsmap := newmap }.checkNewMap around reconnects noMemory newmap client.mdsmap
    return checked.wakeMap around

end MdsClient

/-- Requests to the metadata servers and the sessions they are sent on. -/
inductive MdsCall where
  | submit (around : Nat → Surroundings) (mode : DirectMode)
  | start (around : Nat → Surroundings) (mode : DirectMode)
  | wait (tid : Tid) (ending : WaitEnd)
  | reply (around : Nat → Surroundings) (id : SessionId) (tid : Tid) (head : Option ReplyHead) (auth : Int)
  | fill (tid : Tid) (err : Int)
  | forward (around : Nat → Surroundings) (tid : Tid) (nextMds : BitVec 32) (fwdSeq : Nat)
  | session (around : Nat → Surroundings) (id : SessionId) (op : SessionOp)
  | map (around : Nat → Surroundings) (reconnects : Nat → Reconnect) (noMemory : Nat → Nat → Bool) (epoch : Nat)
      (newmap : MdsMap)
  | hang (id : SessionId)
  | close (id : SessionId)
  | stop

def MdsCall.run (call : MdsCall) (before : MdsClient) : Except MdsStop MdsClient :=
  let client := { before with calls := 0 }
  match call with
  | .submit around mode => return client.submitRequest around mode
  | .start around mode => return client.startRequest around mode
  | .wait tid ending => client.returnRequest tid ending
  | .reply around id tid head auth => return client.handleReply around id tid head auth
  | .fill tid err => client.fillReply tid err
  | .forward around tid nextMds fwdSeq => client.handleForward around tid nextMds fwdSeq
  | .session around id op => client.handleSession around id op
  | .map around reconnects noMemory epoch newmap => client.handleMap around reconnects noMemory epoch newmap
  | .hang id => return if (client.session id).state = .opened then client.setState id .hung else client
  | .close id => return client.closeSession id
  | .stop => return { client with stopping := true }

end KmodCeph.Mds
