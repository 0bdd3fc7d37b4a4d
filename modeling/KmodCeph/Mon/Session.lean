import KmodCeph.Auth.Client

namespace KmodCeph.Mon

open Lib Auth

inductive SubscribeItem where
  | osdmap (have_ : UInt32)
  | mdsmap (have_ : UInt32)
  | monmap
deriving DecidableEq

inductive MonMsg where
  | auth
  | subscribe (items : List SubscribeItem)
  | request (tid : Nat)
deriving DecidableEq

def MonMsg.isSubscribe : MonMsg → Bool
  | .subscribe _ => true
  | _ => false

/-- `struct ceph_mon_client`, with the queue of its connection. `requests` are the tids of the generic requests, in
order, which do not wrap; `unproven` says that the session was opened and no reply made it authenticated since. -/
structure MonClient where
  curMon : Option Nat
  hunting : Bool
  pendingAuth : Bool
  subSent : UInt64
  subRenewAfter : UInt64
  jiffies : UInt64
  wantNextOsdmap : Nat
  wantMdsmap : Bool
  haveMdsmap : UInt32
  haveOsdmap : UInt32
  auth : AuthState
  lastTid : Nat
  requests : List Nat
  conOpen : Bool
  queue : List MonMsg
  unproven : Bool

def helloLen : Nat := 18 + 4 + 4 + 1 + 4 + 8 + 8 + 5 + 8

namespace MonClient

def init : MonClient where
  curMon := none
  hunting := true
  pendingAuth := false
  subSent := 0
  subRenewAfter := 0
  jiffies := 0
  wantNextOsdmap := 1
  wantMdsmap := false
  haveMdsmap := 0
  haveOsdmap := 0
  auth := .init
  lastTid := 0
  requests := []
  conOpen := false
  queue := []
  unproven := false

def conSend (msg : MonMsg) (monc : MonClient) : MonClient :=
  if monc.conOpen then { monc with queue := monc.queue ++ [msg] } else monc

/-- `ceph_msg_revoke`, of a message that is in the queue at most once. -/
def msgRevoke (revoked : MonMsg → Bool) (monc : MonClient) : MonClient :=
  { monc with queue := monc.queue.filter fun msg => !revoked msg }

def sendPreparedAuthRequest (monc : MonClient) : MonClient :=
  let monc := { monc with pendingAuth := true }
  (monc.msgRevoke fun msg => msg = .auth).conSend .auth

def closeSession (monc : MonClient) : MonClient :=
  { monc with
    queue := []
    conOpen := false
    curMon := none
    pendingAuth := false
    auth := monc.auth.reset
    unproven := false }

def openSession (mon : Nat) (monc : MonClient) : MonClient :=
  match monc.curMon with
  | some _ => monc
  | none =>
    { monc with
      curMon := some mon
      subSent := 0
      subRenewAfter := monc.jiffies
      wantNextOsdmap := if monc.wantNextOsdmap = 0 then 0 else 1
      conOpen := true
      unproven := true }.sendPreparedAuthRequest

def timeAfterEq (a b : UInt64) : Bool := 0 ≤ (a - b).toInt64.toInt

def subExpired (monc : MonClient) : Bool := timeAfterEq monc.jiffies monc.subRenewAfter

def subscribeItems (monc : MonClient) : List SubscribeItem :=
  (if monc.wantNextOsdmap ≠ 0 then [.osdmap monc.haveOsdmap] else []) ++
    (if monc.wantMdsmap then [.mdsmap monc.haveMdsmap] else []) ++ [.monmap]

def subscribeDue (monc : MonClient) : Bool :=
  monc.subExpired && monc.subSent = 0 || monc.wantNextOsdmap = 1

def sendSubscribe (monc : MonClient) : MonClient :=
  if monc.subscribeDue then
    let items := monc.subscribeItems
    let monc := { monc with wantNextOsdmap := if monc.wantNextOsdmap = 0 then 0 else 2 }
    { (monc.msgRevoke MonMsg.isSubscribe).conSend (.subscribe items) with subSent := monc.jiffies ||| 1 }
  else monc

/-- `handle_subscribe_ack`, at so many jiffies for a second. -/
def handleSubscribeAck (hz duration : UInt32) (monc : MonClient) : MonClient :=
  { monc with
    hunting := false
    subRenewAfter := monc.subSent + ((duration >>> 1) * hz).toUInt64 - 1
    subSent := 0 }

def gotMdsmap (got : UInt32) (monc : MonClient) : MonClient :=
  { monc with haveMdsmap := got }

def gotOsdmap (got : UInt32) (monc : MonClient) : MonClient :=
  { monc with
    haveOsdmap := got
    wantNextOsdmap := 0 }

def requestNextOsdmap (monc : MonClient) : MonClient :=
  let monc := { monc with wantNextOsdmap := if monc.wantNextOsdmap = 0 then 1 else monc.wantNextOsdmap }
  if monc.wantNextOsdmap < 2 then monc.sendSubscribe else monc

def resend (tid : Nat) (monc : MonClient) : MonClient :=
  (monc.msgRevoke fun msg => msg = .request tid).conSend (.request tid)

def resendGenericRequest (monc : MonClient) : MonClient :=
  monc.requests.foldl (fun monc tid => monc.resend tid) monc

def validateAuth (env : BuildEnv) (monc : MonClient) : MonClient :=
  if monc.pendingAuth then monc
  else
    let (ret, auth) := monc.auth.buildAuth monKeys env helloLen
    let monc := { monc with auth := auth }
    if ret ≤ 0 then monc else monc.sendPreparedAuthRequest

/-- `handle_auth_reply` behind `ceph_handle_auth_reply`; `isAuth` and `later` are what `ceph_auth_is_authenticated` then
says, where it is asked. -/
def settle (wasAuth isAuth : Bool) (later : AuthState) (ret : Int) (monc : MonClient) : MonClient :=
  if ret < 0 then monc
  else if ret > 0 then monc.sendPreparedAuthRequest
  else if wasAuth then monc
  else
    let monc := { monc with auth := later }
    if isAuth then monc.sendSubscribe.resendGenericRequest else monc

def handleAuthReply (env : BuildEnv) (initRet : Int) (reply : MonAuthReply) (monc : MonClient) :
    Except AuthFault MonClient := do
  let (wasAuth, auth) := monc.auth.isAuthenticated monKeys env.alloc
  let (ret, auth) ← auth.handleAuthReply monKeys env initRet reply
  let (isAuth, later) := auth.isAuthenticated monKeys env.alloc
  let monc := { monc with
    pendingAuth := false
    auth := auth
    unproven := monc.unproven && (wasAuth || !isAuth) }
  return monc.settle wasAuth isAuth later ret

def monFault (mon : Nat) (monc : MonClient) : MonClient :=
  let hunting := monc.hunting
  let monc := monc.closeSession
  if hunting then monc else { monc with hunting := true }.openSession mon

def delayedWork (env : BuildEnv) (mon : Nat) (monc : MonClient) : MonClient :=
  if monc.hunting then monc.closeSession.openSession mon
  else
    let monc := monc.validateAuth env
    let (isAuth, auth) := monc.auth.isAuthenticated monKeys env.alloc
    let monc := { monc with auth := auth }
    if isAuth then monc.sendSubscribe else monc

def submit (monc : MonClient) : MonClient :=
  { monc with
    lastTid := monc.lastTid + 1
    requests := monc.requests ++ [monc.lastTid + 1] }.conSend (.request (monc.lastTid + 1))

def finish (tid : Nat) (monc : MonClient) : MonClient :=
  { monc with requests := monc.requests.erase tid }

end MonClient

/-- The session with a monitor, `net/ceph/mon_client.c`. -/
inductive ClientCall where
  | openSession (mon : Nat)
  | fault (mon : Nat)
  | delayedWork (env : BuildEnv) (mon : Nat)
  | authReply (env : BuildEnv) (initRet : Int) (reply : MonAuthReply)
  | validateAuth (env : BuildEnv)
  | subscribeAck (hz duration : UInt32)
  | requestNextOsdmap
  | wantMdsmap
  | gotMdsmap (epoch : UInt32)
  | gotOsdmap (epoch : UInt32)
  | submit
  | finish (tid : Nat)
  | transmit
  | pass (jiffies : UInt64) (seconds : Nat)

def ClientCall.run : ClientCall → MonClient → Except AuthFault MonClient
  | .openSession mon, monc => .ok (monc.openSession mon)
  | .fault mon, monc => .ok (monc.monFault mon)
  | .delayedWork env mon, monc => .ok (monc.delayedWork env mon)
  | .authReply env initRet reply, monc => monc.handleAuthReply env initRet reply
  | .validateAuth env, monc => .ok (monc.validateAuth env)
  | .subscribeAck hz duration, monc => .ok (monc.handleSubscribeAck hz duration)
  | .requestNextOsdmap, monc => .ok monc.requestNextOsdmap
  | .wantMdsmap, monc => .ok { monc with wantMdsmap := true }
  | .gotMdsmap epoch, monc => .ok (monc.gotMdsmap epoch)
  | .gotOsdmap epoch, monc => .ok (monc.gotOsdmap epoch)
  | .submit, monc => .ok monc.submit
  | .finish tid, monc => .ok (monc.finish tid)
  | .transmit, monc => .ok { monc with queue := monc.queue.tail }
  | .pass jiffies seconds, monc => .ok { monc with
      jiffies := monc.jiffies + jiffies
      auth := monc.auth.pass seconds }

end KmodCeph.Mon
