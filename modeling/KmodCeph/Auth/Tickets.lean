import KmodCeph.Basic
import KmodCeph.Lib.Reached
import Mathlib.Logic.Function.Basic

namespace KmodCeph.Auth

open Lib

def entityTypeAuth : BitVec 32 := 0x20

def erange : Int := 34

/-- `want_keys`. All of them are below the bits that an `int` loop cannot reach. -/
structure WantedKeys where
  keys : BitVec 32
  small : keys.toNat < 2 ^ 30

def service (bit : Nat) : BitVec 32 :=
  .twoPow 32 bit

def monKeys : WantedKeys where
  keys := 0x20 ||| 0x01 ||| 0x04 ||| 0x02
  small := by decide

structure TicketHandler where
  service : BitVec 32
  sessionKey : List UInt8
  validity : BitVec 32 × BitVec 32
  secretId : BitVec 64
  ticketBlob : Option (List UInt8)
  renewAfter : Nat
  expires : Nat

namespace TicketHandler

def blank (service : BitVec 32) : TicketHandler where
  service := service
  sessionKey := []
  validity := (0, 0)
  secretId := 0
  ticketBlob := none
  renewAfter := 0
  expires := 0

end TicketHandler

/-- What `process_one_ticket` decodes of a ticket: the key and the validity that are for the client, and what is for
the service. -/
structure NewTicket where
  sessionKey : List UInt8
  validity : BitVec 32 × BitVec 32
  secretId : BitVec 64
  ticketBlob : List UInt8

namespace TicketHandler

def update (new : NewTicket) (now : Nat) (handler : TicketHandler) : TicketHandler :=
  let expires := now + new.validity.1.toNat
  { handler with
    sessionKey := new.sessionKey
    validity := new.validity
    secretId := new.secretId
    ticketBlob := some new.ticketBlob
    expires := expires
    renewAfter := expires - new.validity.1.toNat / 4 }

/-- A handler after the `memset` of `ceph_x_invalidate_authorizer`. -/
def clearValidity (handler : TicketHandler) : TicketHandler :=
  { handler with validity := (0, 0) }

end TicketHandler

/-- A ticket in a reply: it is cut off or has a wrong version before its handler is looked up, or it is for a service
and decodes, or stops with a code. -/
inductive TicketReply where
  | bad
  | ticket (type : BitVec 32) (content : Except Int NewTicket)

/-- `invalidated` are the services whose authorizers were invalidated after their last ticket. -/
structure AuthClient where
  haveKeys : BitVec 32
  handlers : BitVec 32 → Option TicketHandler
  clock : Nat
  invalidated : BitVec 32 → Bool

inductive AuthRequest where
  | nothing
  | authSessionKey (secretId : BitVec 64) (ticketBlob : List UInt8)
  | principalSessionKey (authorizer : List UInt8) (keys : BitVec 32)

/-- What a request is built with: for which services a handler can be allocated, the length of the buffer, what
`ceph_x_encrypt` returns if it fails, and what `ceph_x_build_authorizer` gives. -/
structure BuildEnv where
  alloc : BitVec 32 → Bool
  room : Nat
  encrypt : Except Int Unit
  authorizer : Except Int (List UInt8)

namespace AuthClient

def init : AuthClient where
  haveKeys := 0
  handlers _ := none
  clock := 0
  invalidated _ := false

def getTicketHandler (alloc : BitVec 32 → Bool) (service : BitVec 32) (client : AuthClient) :
    Option TicketHandler × AuthClient :=
  match client.handlers service with
  | some handler => (some handler, client)
  | none =>
    if alloc service then
      (some (.blank service), { client with
        handlers := Function.update client.handlers service (some (.blank service)) })
    else (none, client)

/-- The end of `process_one_ticket`. -/
def install (handler : TicketHandler) (new : NewTicket) (client : AuthClient) : AuthClient :=
  { client with
    haveKeys := client.haveKeys ||| handler.service
    handlers := Function.update client.handlers handler.service (some (handler.update new client.clock))
    invalidated := Function.update client.invalidated handler.service false }

def processOneTicket (alloc : BitVec 32 → Bool) (reply : TicketReply) (client : AuthClient) : Int × AuthClient :=
  match reply with
  | .bad => (-einval, client)
  | .ticket type content =>
    match client.getTicketHandler alloc type with
    | (none, client) => (-enomem, client)
    | (some handler, client) =>
      match content with
      | .error ret => (ret, client)
      | .ok new => (0, client.install handler new)

def procTicketReply (alloc : BitVec 32 → Bool) : List TicketReply → AuthClient → Int × AuthClient
  | [], client => (0, client)
  | reply :: rest, client =>
    match client.processOneTicket alloc reply with
    | (0, client) => procTicketReply alloc rest client
    | (ret, client) => (ret, client)

/-- The loop of `ceph_x_validate_tickets` at a service. -/
def validateService (want : WantedKeys) (alloc : BitVec 32 → Bool) (bit : Nat) (need : BitVec 32)
    (client : AuthClient) : BitVec 32 × AuthClient :=
  if want.keys &&& service bit = 0 then (need, client)
  else if need &&& service bit ≠ 0 then (need, client)
  else
    match client.getTicketHandler alloc (service bit) with
    | (none, client) => (need ||| service bit, client)
    | (some handler, client) =>
      let need := if handler.renewAfter ≤ client.clock then need ||| service bit else need
      if handler.expires ≤ client.clock then
        (need, { client with haveKeys := client.haveKeys &&& ~~~service bit })
      else (need, client)

def validateFrom (want : WantedKeys) (alloc : BitVec 32 → Bool) :
    Nat → Nat → BitVec 32 → AuthClient → BitVec 32 × AuthClient
  | 0, _, need, client => (need, client)
  | fuel + 1, bit, need, client =>
    if service bit ≤ want.keys then
      let (need, client) := client.validateService want alloc bit need
      validateFrom want alloc fuel (bit + 1) need client
    else (need, client)

def validateTickets (want : WantedKeys) (alloc : BitVec 32 → Bool) (client : AuthClient) : BitVec 32 × AuthClient :=
  validateFrom want alloc 31 0 (want.keys &&& ~~~client.haveKeys) client

def isAuthenticated (want : WantedKeys) (alloc : BitVec 32 → Bool) (client : AuthClient) : Bool × AuthClient :=
  let (_, client) := client.validateTickets want alloc
  (want.keys &&& client.haveKeys = want.keys, client)

def shouldAuthenticate (want : WantedKeys) (alloc : BitVec 32 → Bool) (client : AuthClient) : Bool × AuthClient :=
  let (need, client) := client.validateTickets want alloc
  (need ≠ 0, client)

def encodeTicket (handler : TicketHandler) (used room : Nat) : Except Int Nat :=
  let length := (handler.ticketBlob.getD []).length
  if room < used + 1 + 8 + 4 + length then .error (-erange) else .ok (used + 1 + 8 + 4 + length)

def buildRequest (want : WantedKeys) (env : BuildEnv) (client : AuthClient) :
    Except Int (AuthRequest × Nat) × AuthClient :=
  match client.getTicketHandler env.alloc entityTypeAuth with
  | (none, client) => (.error (-enomem), client)
  | (some handler, client) =>
    let (need, client) := client.validateTickets want env.alloc
    if need &&& entityTypeAuth ≠ 0 then
      (do
        haltIf (env.room < 2 + 17) (-erange)
        env.encrypt
        let length ← encodeTicket handler (2 + 17) env.room
        return (.authSessionKey handler.secretId (handler.ticketBlob.getD []), length), client)
    else if need ≠ 0 then
      (do
        haltIf (env.room < 2) (-erange)
        let authorizer ← env.authorizer
        return (.principalSessionKey authorizer need, 2 + authorizer.length + 5), client)
    else (.ok (.nothing, 0), client)

def invalidateAuthorizer (alloc : BitVec 32 → Bool) (peerType : BitVec 32) (client : AuthClient) : AuthClient :=
  let client := { client with invalidated := Function.update client.invalidated peerType true }
  match client.getTicketHandler alloc peerType with
  | (none, client) => client
  | (some handler, client) =>
    { client with
      handlers := Function.update client.handlers peerType (some handler.clearValidity) }

end AuthClient

/-- What becomes of the tickets of a client that authenticates with cephx. -/
inductive AuthCall where
  | reply (alloc : BitVec 32 → Bool) (tickets : List TicketReply)
  | pass (seconds : Nat)
  | invalidate (alloc : BitVec 32 → Bool) (peerType : BitVec 32)
  | isAuthenticated (alloc : BitVec 32 → Bool)
  | shouldAuthenticate (alloc : BitVec 32 → Bool)
  | buildRequest (env : BuildEnv)

namespace AuthCall

def run (want : WantedKeys) : AuthCall → AuthClient → Except Empty AuthClient
  | .reply alloc tickets, client => return (client.procTicketReply alloc tickets).2
  | .pass seconds, client => return { client with clock := client.clock + seconds }
  | .invalidate alloc peerType, client => return client.invalidateAuthorizer alloc peerType
  | .isAuthenticated alloc, client => return (client.isAuthenticated want alloc).2
  | .shouldAuthenticate alloc, client => return (client.shouldAuthenticate want alloc).2
  | .buildRequest env, client => return (client.buildRequest want env).2

end AuthCall

end KmodCeph.Auth
