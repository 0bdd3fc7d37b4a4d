import KmodCeph.Auth.Tickets

namespace KmodCeph.Auth

open Lib

def cephAuthNone : Int := 1
def cephAuthCephx : Int := 2

/-- The two methods of authentication, `net/ceph/auth_none.c` and `net/ceph/auth_x.c`. -/
inductive Method where
  | plain (starting : Bool)
  | cephx (starting : Bool) (client : AuthClient)

/-- `struct ceph_auth_client`, with the time. -/
structure AuthState where
  method : Option Method
  negotiating : Bool
  clock : Nat

inductive CephxOp where
  | getAuthSessionKey
  | getPrincipalSessionKey
  | unknown

/-- The payload of a reply, as cephx reads it: whether it has the length of a server challenge, and the header and the
tickets that are in it otherwise. -/
structure CephxPayload where
  challenge : Bool
  op : CephxOp
  tickets : List TicketReply

inductive MonAuthReply where
  | malformed
  | reply (protocol result : Int) (payload : CephxPayload)

inductive AuthFault where
  | nullPointer

namespace Method

def protocol : Method → Int
  | .plain _ => cephAuthNone
  | .cephx _ _ => cephAuthCephx

def reset : Method → Method
  | .plain _ => .plain true
  | .cephx _ client => .cephx true client

/-- `ceph_x_handle_reply` behind the server challenge. -/
def handleTickets (want : WantedKeys) (alloc : BitVec 32 → Bool) (payload : CephxPayload) (client : AuthClient) :
    Int × AuthClient :=
  let (ret, client) := match payload.op with
    | .getAuthSessionKey => client.procTicketReply alloc payload.tickets
    | .getPrincipalSessionKey =>
      match client.getTicketHandler alloc entityTypeAuth with
      | (none, client) => (-enomem, client)
      | (some _, client) => client.procTicketReply alloc payload.tickets
    | .unknown => (-einval, client)
  if ret ≠ 0 then (ret, client)
  else if want.keys = client.haveKeys then (0, client)
  else (-eagain, client)

def handleReply (want : WantedKeys) (alloc : BitVec 32 → Bool) (result : Int) (payload : CephxPayload) :
    Method → Int × Method
  | .plain _ => (result, .plain false)
  | .cephx starting client =>
    if result ≠ 0 then (result, .cephx starting client)
    else if starting then
      if payload.challenge then
        (-eagain, .cephx false { client with haveKeys := client.haveKeys &&& ~~~entityTypeAuth })
      else (-einval, .cephx starting client)
    else
      let (ret, client) := handleTickets want alloc payload client
      (ret, .cephx starting client)

def buildAuthRequest (want : WantedKeys) (env : BuildEnv) : Method → Int × Method
  | .plain starting => (26, .plain starting)
  | .cephx starting client =>
    match client.buildRequest want env with
    | (.error ret, client) => (ret, .cephx starting client)
    | (.ok (_, length), client) => (26 + length, .cephx starting client)

def isAuthenticated (want : WantedKeys) (alloc : BitVec 32 → Bool) : Method → Bool × Method
  | .plain starting => (!starting, .plain starting)
  | .cephx starting client =>
    let (authenticated, client) := client.isAuthenticated want alloc
    (authenticated, .cephx starting client)

def shouldAuthenticate (want : WantedKeys) (alloc : BitVec 32 → Bool) : Method → Bool × Method
  | .plain starting => (starting, .plain starting)
  | .cephx starting client =>
    let (should, client) := client.shouldAuthenticate want alloc
    (should, .cephx starting client)

end Method

namespace AuthState

def init : AuthState where
  method := none
  negotiating := true
  clock := 0

def protocol (state : AuthState) : Int := state.method.elim 0 Method.protocol

def reset (state : AuthState) : AuthState :=
  { state with
    method := if state.negotiating then state.method else state.method.map Method.reset
    negotiating := true }

/-- `ceph_auth_init_protocol`. `ret` is what the method's own init returns, if it fails. -/
def initProtocol (protocol ret : Int) (state : AuthState) : Except Int Method :=
  if protocol = cephAuthNone then if ret < 0 then .error ret else .ok (.plain true)
  else if protocol = cephAuthCephx then
    if ret < 0 then .error ret else .ok (.cephx true { AuthClient.init with clock := state.clock })
  else .error (-enoent)

def finishReply (want : WantedKeys) (env : BuildEnv) (result : Int) (payload : CephxPayload) (state : AuthState) :
    Except AuthFault (Int × AuthState) :=
  match state.method with
  | none => .error .nullPointer
  | some method =>
    match method.handleReply want env.alloc result payload with
    | (ret, method) =>
      if ret = -eagain then
        let (ret, method) := method.buildAuthRequest want env
        .ok (ret, { state with method := some method })
      else .ok (ret, { state with method := some method })

def handleAuthReply (want : WantedKeys) (env : BuildEnv) (initRet : Int) (reply : MonAuthReply) (state : AuthState) :
    Except AuthFault (Int × AuthState) :=
  match reply with
  | .malformed => .ok (-einval, state)
  | .reply protocol result payload =>
    if state.negotiating then
      if protocol = 0 ∧ result < 0 then .ok (result, state)
      else
        let state := if state.protocol ≠ 0 ∧ state.protocol ≠ protocol then { state with method := none } else state
        if state.protocol ≠ protocol then
          match state.initProtocol protocol initRet with
          | .error ret => .ok (ret, state)
          | .ok method => finishReply want env result payload { state with
              method := some method
              negotiating := false }
        else finishReply want env result payload { state with negotiating := false }
    else finishReply want env result payload state

/-- `ceph_build_auth`, with the length of the message if there is one. A hello always has room. -/
def buildAuth (want : WantedKeys) (env : BuildEnv) (helloLen : Nat) (state : AuthState) : Int × AuthState :=
  match state.method with
  | none => (helloLen, state)
  | some method =>
    match method.shouldAuthenticate want env.alloc with
    | (false, method) => (0, { state with method := some method })
    | (true, method) =>
      let (ret, method) := method.buildAuthRequest want env
      (ret, { state with method := some method })

def isAuthenticated (want : WantedKeys) (alloc : BitVec 32 → Bool) (state : AuthState) : Bool × AuthState :=
  match state.method with
  | none => (false, state)
  | some method =>
    let (authenticated, method) := method.isAuthenticated want alloc
    (authenticated, { state with method := some method })

def pass (seconds : Nat) (state : AuthState) : AuthState where
  method := state.method.map fun
    | .plain starting => .plain starting
    | .cephx starting client => .cephx starting { client with clock := client.clock + seconds }
  negotiating := state.negotiating
  clock := state.clock + seconds

end AuthState

end KmodCeph.Auth
