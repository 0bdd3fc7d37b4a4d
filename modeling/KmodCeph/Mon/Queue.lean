import KmodCeph.Mon.Session

namespace KmodCeph.Mon

open Lib Auth List MonClient

/-- Which message it is: there is one to authenticate, one to subscribe, and one for each request. -/
def MonMsg.message : MonMsg → Nat
  | .auth => 0
  | .subscribe _ => 1
  | .request tid => tid + 2

/-- No message is queued twice, as `ceph_con_send` asks for, and none while there is no session. -/
structure MonClient.Queued (monc : MonClient) : Prop where
  once : (monc.queue.map MonMsg.message).Nodup
  opened : monc.conOpen = monc.curMon.isSome
  closed : monc.conOpen = false → monc.queue = []
  known : ∀ msg ∈ monc.queue, msg.message ≤ monc.lastTid + 2
  pending : monc.requests.Nodup ∧ ∀ tid ∈ monc.requests, tid ≤ monc.lastTid

namespace MonClient

section

variable {monc : MonClient} {msg : MonMsg} {revoked : MonMsg → Bool}

theorem Queued.send (queued : monc.Queued) (known : msg.message ≤ monc.lastTid + 2)
    (absent : ∀ other ∈ monc.queue, other.message ≠ msg.message) : (monc.conSend msg).Queued := by
  unfold conSend
  split
  next opened =>
    have once : (monc.queue.map MonMsg.message ++ [msg.message]).Nodup := by
      refine nodup_append.mpr ⟨queued.once, nodup_singleton _, ?_⟩
      simpa using absent
    refine ⟨?_, queued.opened, fun closed => ?_, ?_, queued.pending⟩
    · rw [map_append]
      exact once
    · exact absurd (opened.symm.trans closed) (by decide)
    · intro other member
      rcases mem_append.mp member with earlier | new
      · exact queued.known other earlier
      · rw [mem_singleton.mp new]
        exact known
  next => exact queued

theorem Queued.revoke (queued : monc.Queued) (revoked : MonMsg → Bool) : (monc.msgRevoke revoked).Queued where
  once := queued.once.sublist (filter_sublist.map _)
  opened := queued.opened
  closed closed := by
    show monc.queue.filter _ = []
    rw [queued.closed closed]
    rfl
  known other member := queued.known other (mem_filter.mp member).1
  pending := queued.pending

/-- A message that is sent again is taken from the queue before. -/
theorem Queued.resent (queued : monc.Queued) (known : msg.message ≤ monc.lastTid + 2)
    (revokes : ∀ other : MonMsg, other.message = msg.message → revoked other = true) :
    ((monc.msgRevoke revoked).conSend msg).Queued := by
  refine (queued.revoke revoked).send known fun other member same => ?_
  have kept := (mem_filter.mp member).2
  rw [revokes other same] at kept
  cases kept

theorem Queued.authSent (queued : monc.Queued) : monc.sendPreparedAuthRequest.Queued := by
  have pending : { monc with pendingAuth := true }.Queued := { queued with }
  refine pending.resent (Nat.zero_le _) fun other same => ?_
  cases other with
  | auth => rfl
  | subscribe items => cases same
  | request tid => cases same

theorem Queued.subscribed (queued : monc.Queued) : monc.sendSubscribe.Queued := by
  unfold sendSubscribe
  split
  · have wants : { monc with wantNextOsdmap := if monc.wantNextOsdmap = 0 then 0 else 2 }.Queued := { queued with }
    have sent := @Queued.resent _ (.subscribe monc.subscribeItems) MonMsg.isSubscribe wants
      (Nat.le_add_left 1 _ |>.trans (Nat.le_succ _)) fun other same => by
        cases other with
        | auth => cases same
        | subscribe items => rfl
        | request tid => cases same
    exact { sent with }
  · exact queued

theorem Queued.requestsSent (queued : monc.Queued) : monc.resendGenericRequest.Queued := by
  unfold resendGenericRequest
  suffices all : ∀ (tids : List Nat) (monc : MonClient), monc.Queued → (∀ tid ∈ tids, tid ≤ monc.lastTid) →
      (tids.foldl (fun monc tid => monc.resend tid) monc).Queued from all _ _ queued queued.pending.2
  intro tids
  induction tids with
  | nil => exact fun _ queued _ => queued
  | cons tid rest ih =>
    intro monc queued known
    have sent : (monc.resend tid).Queued := by
      refine queued.resent (Nat.add_le_add_right (known tid (mem_cons_self ..)) 2) fun other same => ?_
      cases other with
      | auth => cases same
      | subscribe items => cases same
      | request other =>
        cases Nat.add_right_cancel same
        exact decide_eq_true rfl
    refine ih _ sent fun other member => ?_
    have lastTid : (monc.resend tid).lastTid = monc.lastTid := by
      unfold resend msgRevoke conSend
      split <;> rfl
    exact lastTid ▸ known other (mem_cons_of_mem _ member)

theorem Queued.sessionClosed (queued : monc.Queued) : monc.closeSession.Queued :=
  ⟨nodup_nil, rfl, fun _ => rfl, forall_mem_nil _, queued.pending⟩

theorem Queued.sessionOpened (queued : monc.Queued) (mon : Nat) : (monc.openSession mon).Queued := by
  unfold openSession
  split
  next => exact queued
  next none =>
    have empty : monc.queue = [] := queued.closed (by rw [queued.opened, none]; rfl)
    refine Queued.authSent ⟨queued.once, rfl, fun closed => ?_, queued.known, queued.pending⟩
    cases closed

theorem Queued.validated (queued : monc.Queued) (env : BuildEnv) : (monc.validateAuth env).Queued := by
  unfold validateAuth
  split
  · exact queued
  · dsimp only
    have built : { monc with auth := (monc.auth.buildAuth monKeys env helloLen).2 }.Queued := { queued with }
    split
    · exact built
    · exact built.authSent

theorem Queued.settled {wasAuth isAuth : Bool} {later : AuthState} {ret : Int} (queued : monc.Queued) :
    (monc.settle wasAuth isAuth later ret).Queued := by
  have asked : { monc with auth := later }.Queued := { queued with }
  unfold settle
  split
  · exact queued
  · split
    · exact queued.authSent
    · split
      · exact queued
      · dsimp only
        split
        · exact asked.subscribed.requestsSent
        · exact asked

theorem Queued.faulted (queued : monc.Queued) (mon : Nat) : (monc.monFault mon).Queued := by
  unfold monFault
  dsimp only
  split
  · exact queued.sessionClosed
  · have closed : { monc.closeSession with hunting := true }.Queued := { queued.sessionClosed with }
    exact closed.sessionOpened mon

theorem Queued.worked (queued : monc.Queued) (env : BuildEnv) (mon : Nat) : (monc.delayedWork env mon).Queued := by
  unfold delayedWork
  split
  · exact queued.sessionClosed.sessionOpened mon
  · have asked : { monc.validateAuth env with
        auth := ((monc.validateAuth env).auth.isAuthenticated monKeys env.alloc).2 }.Queued :=
      { queued.validated env with }
    dsimp only
    split
    · exact asked.subscribed
    · exact asked

theorem Queued.submitted (queued : monc.Queued) : monc.submit.Queued := by
  refine Queued.send ⟨queued.once, queued.opened, queued.closed, fun msg member => ?_, ?_, ?_⟩ le_rfl ?_
  · exact (queued.known msg member).trans (Nat.le_succ _)
  · refine nodup_append.mpr ⟨queued.pending.1, nodup_singleton _, ?_⟩
    intro tid member new isNew same
    have known := queued.pending.2 tid member
    rw [same, mem_singleton.mp isNew] at known
    omega
  · intro tid member
    rcases mem_append.mp member with earlier | new
    · exact (queued.pending.2 tid earlier).trans (Nat.le_succ _)
    · exact (mem_singleton.mp new).le
  · intro other member same
    have known := queued.known other member
    rw [same] at known
    exact absurd known (by simp [MonMsg.message])

end

end MonClient

theorem ClientCall.preserves_queued : Preserves ClientCall.run (fun _ _ => True) MonClient.Queued := by
  intro call before after _ queued ran
  cases call with
  | openSession mon =>
    cases ran
    exact queued.sessionOpened mon
  | fault mon =>
    cases ran
    exact queued.faulted mon
  | delayedWork env mon =>
    cases ran
    exact queued.worked env mon
  | authReply env initRet reply =>
    obtain ⟨⟨ret, auth⟩, handled, rest⟩ := ok_of_bind ran
    cases rest
    exact MonClient.Queued.settled { queued with }
  | validateAuth env =>
    cases ran
    exact queued.validated env
  | requestNextOsdmap =>
    cases ran
    unfold MonClient.requestNextOsdmap
    dsimp only
    generalize (if before.wantNextOsdmap = 0 then 1 else before.wantNextOsdmap) = want
    have wants : { before with wantNextOsdmap := want }.Queued := { queued with }
    split
    · exact wants.subscribed
    · exact wants
  | submit =>
    cases ran
    exact queued.submitted
  | finish tid =>
    cases ran
    exact { queued with
      pending := ⟨queued.pending.1.erase tid, fun other member => queued.pending.2 other (mem_of_mem_erase member)⟩ }
  | transmit =>
    cases ran
    exact { queued with
      once := queued.once.sublist ((tail_sublist _).map _)
      closed := fun closed => by
        show before.queue.tail = []
        rw [queued.closed closed]
        rfl
      known := fun msg member => queued.known msg (mem_of_mem_tail member) }
  | subscribeAck | wantMdsmap | gotMdsmap | gotOsdmap | pass =>
    cases ran
    exact { queued with }

/-- In every run no message is queued that is in the queue already, nothing is queued while no session is open, and
the pending requests are distinct. -/
theorem mon_queue_once {monc : MonClient} (reached : Reached ClientCall.run (fun _ _ => True) .init monc) :
    monc.Queued := by
  have start : init.Queued := ⟨nodup_nil, rfl, fun _ => rfl, forall_mem_nil _, nodup_nil, forall_mem_nil _⟩
  exact reached.preserved ClientCall.preserves_queued start

theorem mon_queue_once_submit : ∃ monc : MonClient, monc.queue = [.auth, .request 1] ∧ monc.Queued :=
  ⟨_, rfl, mon_queue_once ((Reached.start.next (.openSession 0) trivial rfl).next .submit trivial rfl)⟩

end KmodCeph.Mon
