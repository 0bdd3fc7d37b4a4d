import KmodCeph.Lib.Reached
import KmodCeph.OsdClient.Requests
import KmodCeph.Osdmap.Map
import Mathlib.Data.UInt

namespace KmodCeph.OsdClient

open Lib

abbrev OsdNum := Int

abbrev EntityAddr := List UInt8

structure MapOps (μ : Type) where
  epoch : μ → Nat
  full : μ → Bool
  pauseRd : μ → Bool
  pauseWr : μ → Bool
  /-- `read_tier` and `write_tier` of `ceph_pg_pool_by_id`. -/
  tiers : μ → Int → Option (Int × Int)
  /-- `ceph_oloc_oid_to_pg`; none is an error. -/
  olocOidToPg : μ → Int → List UInt8 → Option Osdmap.Pg
  /-- `ceph_calc_pg_acting`: the acting set and the primary. -/
  calcPgActing : μ → Osdmap.Pg → List Int × OsdNum
  isUp : μ → OsdNum → Bool
  addr : μ → OsdNum → EntityAddr
  /-- `osdmap_apply_incremental`: the new map, or none with what an error makes of the old one. -/
  applyIncremental : List UInt8 → μ → Option μ × μ
  /-- `ceph_osdmap_decode`. -/
  decode : List UInt8 → Option μ

structure RequestFlags where
  read : Bool
  write : Bool
  ignoreOverlay : Bool
  retry : Bool
deriving DecidableEq

structure OsdRequest where
  tid : Nat
  flags : RequestFlags
  basePool : Int
  baseOid : List UInt8
  targetPool : Int
  targetOid : List UInt8
  numOps : Nat
  linger : Bool
  osd : Option OsdNum
  sent : Nat
  gotReply : Bool
  paused : Bool
  pgid : Osdmap.Pg
  pgOsds : List Int
  result : Int
  reassertVersion : Nat × Nat
  unsafeCallback : Bool

/-- `struct ceph_osd`; `opened` is `ceph_con_opened`. -/
structure OsdSession where
  incarnation : Nat
  requests : List ReqId
  lingerRequests : List ReqId
  peerAddr : EntityAddr
  opened : Bool

inductive OsdEvent where
  | started (req : ReqId)
  /-- `ceph_con_send` on the incarnation of a session. -/
  | sent (osd : OsdNum) (incarnation : Nat) (req : ReqId) (tid : Nat)
  /-- `r_callback`, or `complete_all` on `r_completion`. -/
  | completed (req : ReqId)
  | unsafeCallback (req : ReqId) (isUnsafe : Bool)
  /-- `complete_all` on `r_safe_completion`. -/
  | safe (req : ReqId)
deriving DecidableEq

/-- `struct ceph_osd_client`, with the requests of its search tree in their order. Tids do not wrap, which takes
`2 ^ 64` requests. -/
structure CephOsdClient (μ : Type) where
  osdmap : Option μ
  lastTid : Nat
  requests : List ReqId
  reqLru : List ReqId
  reqUnsent : List ReqId
  reqNotarget : List ReqId
  reqLinger : List ReqId
  osds : List OsdNum
  req : ReqId → OsdRequest
  session : OsdNum → OsdSession
  log : List OsdEvent

variable {μ : Type}

namespace CephOsdClient

def setReq (osdc : CephOsdClient μ) (req : ReqId) (change : OsdRequest → OsdRequest) : CephOsdClient μ :=
  { osdc with req := Function.update osdc.req req (change (osdc.req req)) }

def setSession (osdc : CephOsdClient μ) (osd : OsdNum) (change : OsdSession → OsdSession) : CephOsdClient μ :=
  { osdc with session := Function.update osdc.session osd (change (osdc.session osd)) }

def delOsdItem (osdc : CephOsdClient μ) (req : ReqId) : CephOsdClient μ :=
  { osdc with session := fun osd =>
      { osdc.session osd with requests := (osdc.session osd).requests.filter (· ≠ req) } }

def delLingerOsdItem (osdc : CephOsdClient μ) (req : ReqId) : CephOsdClient μ :=
  { osdc with session := fun osd =>
      { osdc.session osd with lingerRequests := (osdc.session osd).lingerRequests.filter (· ≠ req) } }

def delLruItem (osdc : CephOsdClient μ) (req : ReqId) : CephOsdClient μ :=
  { osdc with
    reqLru := osdc.reqLru.filter (· ≠ req)
    reqUnsent := osdc.reqUnsent.filter (· ≠ req)
    reqNotarget := osdc.reqNotarget.filter (· ≠ req) }

def note (osdc : CephOsdClient μ) (events : List OsdEvent) : CephOsdClient μ :=
  { osdc with log := osdc.log ++ events }

/-- `__register_request`; a new tid is the last of the search tree. -/
def registerRequest (req : ReqId) (osdc : CephOsdClient μ) : CephOsdClient μ :=
  let tid := osdc.lastTid + 1
  { osdc.setReq req fun r => { r with tid := tid } with
    lastTid := tid
    requests := osdc.requests ++ [req] }

def unregisterRequest (req : ReqId) (osdc : CephOsdClient μ) : CephOsdClient μ :=
  if req ∉ osdc.requests then osdc
  else
    let osdc := { osdc with requests := osdc.requests.filter (· ≠ req) }
    let osdc :=
      match (osdc.req req).osd with
      | none => osdc
      | some osd =>
        let osdc := osdc.delOsdItem req
        if req ∈ (osdc.session osd).lingerRequests then osdc
        else osdc.setReq req fun r => { r with osd := none }
    osdc.delLruItem req

def cancelRequest (req : ReqId) (osdc : CephOsdClient μ) : CephOsdClient μ :=
  if (osdc.req req).sent ≠ 0 ∧ (osdc.req req).osd.isSome then osdc.setReq req fun r => { r with sent := 0 }
  else osdc

def registerLingerRequest (req : ReqId) (osdc : CephOsdClient μ) : CephOsdClient μ :=
  let osdc := { osdc with reqLinger := osdc.reqLinger ++ [req] }
  match (osdc.req req).osd with
  | none => osdc
  | some osd => osdc.setSession osd fun s => { s with lingerRequests := s.lingerRequests ++ [req] }

def unregisterLingerRequest (req : ReqId) (osdc : CephOsdClient μ) : CephOsdClient μ :=
  if req ∉ osdc.reqLinger then osdc
  else
    let osdc := { osdc with reqLinger := osdc.reqLinger.filter (· ≠ req) }
    let osdc :=
      match (osdc.req req).osd with
      | none => osdc
      | some osd =>
        let osdc := osdc.delLingerOsdItem req
        if req ∈ (osdc.session osd).requests then osdc
        else osdc.setReq req fun r => { r with osd := none }
    osdc.delLruItem req

def moveNotarget (req : ReqId) (osdc : CephOsdClient μ) : CephOsdClient μ :=
  let osdc := osdc.delLruItem req
  { osdc with reqNotarget := req :: osdc.reqNotarget }

def enqueueRequest (req : ReqId) (osdc : CephOsdClient μ) : CephOsdClient μ :=
  match (osdc.req req).osd with
  | some osd =>
    let osdc := osdc.setSession osd fun s => { s with requests := s.requests ++ [req] }
    let osdc := osdc.delLruItem req
    { osdc with reqUnsent := osdc.reqUnsent ++ [req] }
  | none =>
    let osdc := osdc.delLruItem req
    { osdc with reqNotarget := osdc.reqNotarget ++ [req] }

def createOsd (osd : OsdNum) (addr : EntityAddr) (osdc : CephOsdClient μ) : CephOsdClient μ :=
  { osdc with
    osds := osdc.osds.filter (· < osd) ++ osd :: osdc.osds.filter (osd < ·)
    session := Function.update osdc.session osd
      { incarnation := 1
        requests := []
        lingerRequests := []
        peerAddr := addr
        opened := false } }

def removeOsd (osd : OsdNum) (osdc : CephOsdClient μ) : CephOsdClient μ :=
  { osdc with osds := osdc.osds.filter (· ≠ osd) }

end CephOsdClient

section

variable (ops : MapOps μ)

def reqShouldBePaused (map : μ) (r : OsdRequest) : Bool :=
  let pauserd := ops.pauseRd map
  let pausewr := ops.pauseWr map || ops.full map
  (r.flags.read && pauserd) || (r.flags.write && pausewr)

def calcRequestPg (map : μ) (r : OsdRequest) : OsdRequest × Option Osdmap.Pg :=
  let needCheckTiering := r.targetPool = -1 ∨ r.targetOid = []
  let r := if r.targetPool = -1 then { r with targetPool := r.basePool } else r
  let r := if r.targetOid = [] then { r with targetOid := r.baseOid } else r
  let r :=
    if needCheckTiering ∧ r.flags.ignoreOverlay = false then
      match ops.tiers map r.targetPool with
      | none => r
      | some (readTier, writeTier) =>
        let r := if r.flags.read ∧ readTier ≥ 0 then { r with targetPool := readTier } else r
        if r.flags.write ∧ writeTier ≥ 0 then { r with targetPool := writeTier } else r
    else r
  (r, ops.olocOidToPg map r.targetPool r.targetOid)

/-- What `__map_request` finds for a request: an error, nothing to do, or the acting set and its
primary to move it to. -/
inductive Mapping where
  | error
  | unchanged
  | moved (acting : List Int) (osd : OsdNum)

/-- `__map_request` up to its comparison with the old mapping, for a request on the given session. -/
def requestMapping (map : μ) (forceResend : Bool) (session : OsdNum → OsdSession) (r : OsdRequest) :
    OsdRequest × Mapping :=
  match calcRequestPg ops map r with
  | (r, none) => (r, .error)
  | (r, some pgid) =>
    let (acting, o) := ops.calcPgActing map pgid
    let wasPaused := r.paused
    let r := { r with
      pgid := pgid
      paused := reqShouldBePaused ops map r }
    let forceResend := forceResend || (wasPaused && !r.paused)
    let same : Bool :=
      match r.osd with
      | none => o = -1
      | some osd => forceResend = false ∧ osd = o ∧ r.sent ≥ (session osd).incarnation ∧ r.pgOsds = acting
    if same || r.paused then (r, .unchanged) else (r, .moved acting o)

/-- What `__map_request` returns: negative, 0 or 1. -/
inductive MapResult where
  | error
  | unchanged
  | changed

namespace CephOsdClient

def leaveOsd (req : ReqId) (osdc : CephOsdClient μ) : CephOsdClient μ :=
  if (osdc.req req).osd.isSome then
    (((osdc.cancelRequest req).delOsdItem req).delLingerOsdItem req).setReq req fun r => { r with osd := none }
  else osdc

/-- The move of a request by `__map_request`; `memory` is whether `create_osd` gets any. -/
def moveRequest (map : μ) (memory : Bool) (acting : List Int) (o : OsdNum) (req : ReqId) (osdc : CephOsdClient μ) :
    MapResult × CephOsdClient μ :=
  let osdc := (osdc.setReq req fun r => { r with pgOsds := acting }).leaveOsd req
  if o ∈ osdc.osds then
    (.changed, (osdc.setReq req fun r => { r with osd := some o }).enqueueRequest req)
  else if 0 ≤ o then
    if memory then
      (.changed, ((osdc.createOsd o (ops.addr map o)).setReq req fun r => { r with osd := some o }).enqueueRequest req)
    else (.error, osdc.moveNotarget req)
  else (.changed, osdc.enqueueRequest req)

def mapRequest (map : μ) (memory forceResend : Bool) (req : ReqId) (osdc : CephOsdClient μ) : MapResult × CephOsdClient μ :=
  match requestMapping ops map forceResend osdc.session (osdc.req req) with
  | (r, .error) => (.error, (osdc.setReq req fun _ => r).moveNotarget req)
  | (r, .unchanged) => (.unchanged, osdc.setReq req fun _ => r)
  | (r, .moved acting o) => (osdc.setReq req fun _ => r).moveRequest ops map memory acting o req

def sendRequest (osdc : CephOsdClient μ) (req : ReqId) : CephOsdClient μ :=
  match (osdc.req req).osd with
  | none => osdc
  | some osd =>
    let osdc := osdc.delLruItem req
    let incarnation := (osdc.session osd).incarnation
    let osdc := { osdc with reqLru := osdc.reqLru ++ [req] }
    (osdc.setReq req fun r => { r with sent := incarnation }).note
      [.sent osd incarnation req (osdc.req req).tid]

def sendQueued (osdc : CephOsdClient μ) : CephOsdClient μ :=
  osdc.reqUnsent.foldl sendRequest osdc

def startRequest (map : μ) (memory nofail : Bool) (req : ReqId) (osdc : CephOsdClient μ) : CephOsdClient μ :=
  let osdc := (osdc.registerRequest req).setReq req fun r => { r with sent := 0, gotReply := false }
  match osdc.mapRequest ops map memory false req with
  | (.error, osdc) => if nofail then osdc else osdc.unregisterRequest req
  | (_, osdc) => if (osdc.req req).osd = none then osdc else osdc.sendQueued

/-- What `__reset_osd` returns: `-ENODEV`, `-EAGAIN` or 0. -/
inductive ResetResult where
  | noDev
  | again
  | done
deriving DecidableEq

def resetOsd (map : μ) (osd : OsdNum) (osdc : CephOsdClient μ) : ResetResult × CephOsdClient μ :=
  let s := osdc.session osd
  if s.requests = [] ∧ s.lingerRequests = [] then (.noDev, osdc.removeOsd osd)
  else if ops.addr map osd = s.peerAddr ∧ s.opened = false then (.again, osdc)
  else
    (.done, osdc.setSession osd fun s => { s with
      peerAddr := ops.addr map osd
      opened := false
      incarnation := s.incarnation + 1 })

def kickLingerRequest (osdc : CephOsdClient μ) (req : ReqId) : CephOsdClient μ :=
  let osd := (osdc.req req).osd
  let osdc := if req ∈ osdc.reqLinger then osdc.unregisterLingerRequest req else osdc.unregisterRequest req
  let osdc := osdc.registerRequest req
  (osdc.setReq req fun r => { r with osd := osd }).enqueueRequest req

/-- The requests of a session that the loop of `__kick_osd_requests` gets to. -/
def sentRequests (osdc : CephOsdClient μ) (osd : OsdNum) : List ReqId :=
  (osdc.session osd).requests.takeWhile fun req => (osdc.req req).sent ≠ 0

/-- That loop's turn for one of them that does not linger. -/
def requeueRequest (osdc : CephOsdClient μ) (req : ReqId) : CephOsdClient μ :=
  (osdc.delLruItem req).setReq req fun r => { r with flags := { r.flags with retry := true } }

/-- That loop, which gives the lingering ones of them, and `list_splice`. -/
def requeueSent (osd : OsdNum) (osdc : CephOsdClient μ) : List ReqId × CephOsdClient μ :=
  let sent := osdc.sentRequests osd
  let resend := sent.filter fun req => (osdc.req req).linger = false
  let resendLinger := sent.filter fun req => (osdc.req req).linger
  let osdc := resend.foldl requeueRequest osdc
  let osdc := resendLinger.foldl delLruItem osdc
  (resendLinger, { osdc with reqUnsent := resend ++ osdc.reqUnsent })

def kickOsdRequests (map : μ) (osd : OsdNum) (osdc : CephOsdClient μ) : CephOsdClient μ :=
  match osdc.resetOsd ops map osd with
  | (.done, osdc) =>
    let (resendLinger, osdc) := osdc.requeueSent osd
    let osdc := (osdc.session osd).lingerRequests.foldl kickLingerRequest osdc
    resendLinger.foldl kickLingerRequest osdc
  | (_, osdc) => osdc

def osdReset (map : μ) (osd : OsdNum) (osdc : CephOsdClient μ) : CephOsdClient μ :=
  (osdc.kickOsdRequests ops map osd).sendQueued

def resetChangedOsds (map : μ) (osdc : CephOsdClient μ) : CephOsdClient μ :=
  osdc.osds.foldl (fun osdc osd =>
    if ops.isUp map osd = false ∨ (osdc.session osd).peerAddr ≠ ops.addr map osd then (osdc.resetOsd ops map osd).2
    else osdc) osdc

def kickRequest (map : μ) (memory : ReqId → Bool) (forceResend forceResendWrites : Bool) (osdc : CephOsdClient μ)
    (req : ReqId) : CephOsdClient μ :=
  if (osdc.req req).linger ∧ req ∉ osdc.reqLinger then (osdc.unregisterRequest req).registerLingerRequest req
  else
    let forceResendReq := forceResend || (forceResendWrites && (osdc.req req).flags.write)
    match osdc.mapRequest ops map (memory req) forceResendReq req with
    | (.changed, osdc) =>
      if (osdc.req req).osd.isSome ∧ (osdc.req req).linger = false then
        osdc.setReq req fun r => { r with flags := { r.flags with retry := true } }
      else osdc
    | (_, osdc) => osdc

def kickLinger (map : μ) (memory : ReqId → Bool) (force : Bool) (osdc : CephOsdClient μ) (req : ReqId) : CephOsdClient μ :=
  match osdc.mapRequest ops map (memory req) force req with
  | (.changed, osdc) =>
    if (osdc.req req).osd = none then osdc else (osdc.registerRequest req).unregisterLingerRequest req
  | (_, osdc) => osdc

def kickRequests (map : μ) (memory : ReqId → Bool) (forceResend forceResendWrites : Bool) (osdc : CephOsdClient μ) :
    CephOsdClient μ :=
  let osdc := osdc.requests.foldl (kickRequest ops map memory forceResend forceResendWrites) osdc
  let osdc := osdc.reqLinger.foldl (kickLinger ops map memory (forceResend || forceResendWrites)) osdc
  osdc.resetChangedOsds ops map

def cephOsdcCancelRequest (req : ReqId) (osdc : CephOsdClient μ) : CephOsdClient μ :=
  (if (osdc.req req).linger then osdc.unregisterLingerRequest req else osdc).unregisterRequest req

def lookup (osdc : CephOsdClient μ) (tid : Nat) : Option ReqId :=
  osdc.requests.find? fun req => (osdc.req req).tid = tid

end CephOsdClient

/-- What a reply message decodes to; `front` is whether the fields before the ops do, and none what
else does not. The pool of a redirect is `-1` without one. -/
structure OsdReply where
  tid : Nat
  front : Bool
  flagsOndisk : Bool
  flagsWrite : Bool
  result : Int
  reassertVersion : Nat × Nat
  numops : Option Nat
  opLens : Option (List UInt32)
  dataLen : UInt32
  opResults : Option (List Int)
  redirect : Option Int

def cephOsdMaxOp : Nat := 3

def OsdReply.accepted (reply : OsdReply) (numOps : Nat) : Option Int := do
  let numops ← reply.numops
  guard (numops ≤ cephOsdMaxOp)
  guard (numops = numOps)
  let opLens ← reply.opLens
  guard (opLens.sum = reply.dataLen)
  let _ ← reply.opResults
  reply.redirect

def OsdReply.answer (reply : OsdReply) (r : OsdRequest) : OsdRequest :=
  { r with
    result := if reply.result = 0 then reply.dataLen.toInt32.toInt else reply.result
    reassertVersion := reply.reassertVersion
    gotReply := true }

def OsdReply.events (reply : OsdReply) (alreadyCompleted unsafeCallback : Bool) (req : ReqId) : List OsdEvent :=
  (if alreadyCompleted then []
    else
      (if unsafeCallback ∧ reply.result ≥ 0 ∧ reply.flagsOndisk = false then [.unsafeCallback req true] else []) ++
        [.completed req]) ++
  if reply.flagsOndisk then
    (if unsafeCallback ∧ alreadyCompleted then [.unsafeCallback req false] else []) ++ [.safe req]
  else []

namespace CephOsdClient

def badReply (req : ReqId) (osdc : CephOsdClient μ) : CephOsdClient μ :=
  let osdc := (osdc.setReq req fun r => { r with result := -5 }).unregisterRequest req
  osdc.note [.completed req, .safe req]

def redirectReply (map : μ) (memory : Bool) (pool : Int) (req : ReqId) (osdc : CephOsdClient μ) : CephOsdClient μ :=
  ((osdc.unregisterRequest req).setReq req fun r => { r with targetPool := pool }).startRequest ops map memory true req

def settleReply (reply : OsdReply) (req : ReqId) (osdc : CephOsdClient μ) : CephOsdClient μ :=
  let osdc := if (osdc.req req).linger ∧ reply.flagsOndisk then osdc.registerLingerRequest req else osdc
  if reply.result < 0 ∨ reply.flagsOndisk ∨ reply.flagsWrite = false then osdc.unregisterRequest req else osdc

/-- `handle_reply` from the registries on. -/
def finishReply (reply : OsdReply) (alreadyCompleted : Bool) (req : ReqId) (osdc : CephOsdClient μ) : CephOsdClient μ :=
  (osdc.settleReply reply req).note (reply.events alreadyCompleted (osdc.req req).unsafeCallback req)

def plainReply (reply : OsdReply) (req : ReqId) (osdc : CephOsdClient μ) : CephOsdClient μ :=
  if (osdc.req req).gotReply = false then
    (osdc.setReq req reply.answer).finishReply reply false req
  else if reply.flagsOndisk = false then osdc
  else osdc.finishReply reply true req

def handleReply (map : μ) (memory : Bool) (reply : OsdReply) (osdc : CephOsdClient μ) : CephOsdClient μ :=
  if reply.front = false then osdc
  else
    match osdc.lookup reply.tid with
    | none => osdc
    | some req =>
      match reply.accepted (osdc.req req).numOps with
      | none => osdc.badReply req
      | some redirect =>
        if redirect ≠ -1 then osdc.redirectReply ops map memory redirect req
        else osdc.plainReply reply req

end CephOsdClient

/-- Calls under the mutex: of the users of requests, of the messenger and of `ceph_osdc_handle_map`
between two maps. -/
inductive OsdCall (μ : Type) where
  | start (req : ReqId) (new : OsdRequest) (nofail memory : Bool)
  | cancel (req : ReqId)
  | reply (message : OsdReply) (memory : Bool)
  | reset (osd : OsdNum)
  /-- A map is installed and `kick_requests` called. -/
  | newMap (map : μ) (memory : ReqId → Bool) (forceResend forceResendWrites : Bool)
  /-- An incremental that fails leaves this of the map. -/
  | spoilMap (map : μ)
  | sendQueued
  | connection (osd : OsdNum) (opened : Bool)
  | removeIdle (osd : OsdNum)

inductive OsdFault where
  | noMap

def CephOsdClient.map (osdc : CephOsdClient μ) : Except OsdFault μ :=
  match osdc.osdmap with
  | some map => .ok map
  | none => .error .noMap

def OsdCall.run : OsdCall μ → CephOsdClient μ → Except OsdFault (CephOsdClient μ)
  | .start req new nofail memory, osdc => do
    let map ← osdc.map
    let osdc := (osdc.setReq req fun _ => new).note [.started req]
    return osdc.startRequest ops map memory nofail req
  | .cancel req, osdc => return osdc.cephOsdcCancelRequest req
  | .reply message memory, osdc => do
    let map ← osdc.map
    return osdc.handleReply ops map memory message
  | .reset osd, osdc => do
    let map ← osdc.map
    return osdc.osdReset ops map osd
  | .newMap map memory forceResend forceResendWrites, osdc =>
    return { osdc with osdmap := some map }.kickRequests ops map memory forceResend forceResendWrites
  | .spoilMap map, osdc => return { osdc with osdmap := some map }
  | .sendQueued, osdc => return osdc.sendQueued
  | .connection osd opened, osdc => return osdc.setSession osd fun s => { s with opened := opened }
  | .removeIdle osd, osdc => return osdc.removeOsd osd

/-- A request as `ceph_osdc_alloc_request` makes it and its user fills it in. -/
structure OsdRequest.Fresh (r : OsdRequest) : Prop where
  target : r.targetPool = -1 ∧ r.targetOid = []
  idle : r.osd = none ∧ r.sent = 0 ∧ r.gotReply = false ∧ r.paused = false ∧ r.pgOsds = []

/-- Requests are started once, when they are in no registry; resets come for sessions that there are,
and only idle sessions are removed. -/
def OsdCall.Proper : OsdCall μ → CephOsdClient μ → Prop
  | .start req new _ _, osdc =>
    .started req ∉ osdc.log ∧ req ∉ osdc.requests ∧ req ∉ osdc.reqLinger ∧ new.Fresh
  | .reset osd, osdc => osd ∈ osdc.osds
  | .removeIdle osd, osdc => (osdc.session osd).requests = [] ∧ (osdc.session osd).lingerRequests = []
  | _, _ => True

def CephOsdClient.init (req : ReqId → OsdRequest) : CephOsdClient μ where
  osdmap := none
  lastTid := 0
  requests := []
  reqLru := []
  reqUnsent := []
  reqNotarget := []
  reqLinger := []
  osds := []
  req := req
  session := fun _ =>
    { incarnation := 0
      requests := []
      lingerRequests := []
      peerAddr := []
      opened := false }
  log := []

end

structure PoolMap where
  epoch : Nat
  pools : List (Int × OsdNum)

def PoolMap.find (map : PoolMap) (pool : Int) : Option OsdNum :=
  (map.pools.find? (·.1 = pool)).map (·.2)

def poolOps : MapOps PoolMap where
  epoch := PoolMap.epoch
  full := fun _ => false
  pauseRd := fun _ => false
  pauseWr := fun _ => false
  tiers := fun map pool => (map.find pool).map fun _ => (-1, -1)
  olocOidToPg := fun map pool _ => (map.find pool).map fun _ => { pool := pool.toNat.toUInt64, seed := 0 }
  calcPgActing := fun map pgid =>
    match map.find pgid.pool.toNat with
    | none => ([], -1)
    | some osd => ([osd], osd)
  isUp := fun _ _ => true
  addr := fun _ osd => [osd.toNat.toUInt8]
  applyIncremental := fun _ map => (none, map)
  decode := fun _ => none

def poolWrite (pool : Int) (linger : Bool) : OsdRequest where
  tid := 0
  flags :=
    { read := false
      write := true
      ignoreOverlay := false
      retry := false }
  basePool := pool
  baseOid := [111]
  targetPool := -1
  targetOid := []
  numOps := 1
  linger := linger
  osd := none
  sent := 0
  gotReply := false
  paused := false
  pgid := { pool := 0, seed := 0 }
  pgOsds := []
  result := 0
  reassertVersion := (0, 0)
  unsafeCallback := false

theorem poolWrite_fresh (pool : Int) (linger : Bool) : (poolWrite pool linger).Fresh :=
  ⟨⟨rfl, rfl⟩, rfl, rfl, rfl, rfl, rfl⟩

end KmodCeph.OsdClient
