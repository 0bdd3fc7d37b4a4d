import Mathlib.Data.List.DropRight
import KmodCeph.Mon.Session

namespace KmodCeph.Mon

open Lib Auth List MonClient

def behindAuth (queue : List MonMsg) : List MonMsg := queue.rtakeWhile (· ≠ .auth)

structure MonClient.Names (items : List SubscribeItem) (monc : MonClient) : Prop where
  monmap : .monmap ∈ items
  mdsmap : monc.wantMdsmap = true → ∃ epoch, .mdsmap epoch ∈ items
  osdmap : monc.wantNextOsdmap ≠ 0 → ∃ epoch, .osdmap epoch ∈ items

def MonClient.Subscribed (monc : MonClient) : Prop :=
  ∃ items, .subscribe items ∈ behindAuth monc.queue ∧ monc.Names items

/-- Everything is queued behind the last authentication: a subscribe message, and each request once. -/
structure MonClient.Ready (monc : MonClient) : Prop where
  subscribed : monc.Subscribed
  requests : ∀ tid ∈ monc.requests, .request tid ∈ behindAuth monc.queue ∧ monc.queue.count (.request tid) = 1

section

variable {queue : List MonMsg} {msg : MonMsg} {monc before after : MonClient} {tid : Nat}

theorem takeWhile_filter {α : Type} {keep goes : α → Bool} (keeps : ∀ entry, goes entry = false → keep entry = true)
    (entries : List α) : (entries.filter keep).takeWhile goes = (entries.takeWhile goes).filter keep := by
  induction entries with
  | nil => rfl
  | cons entry rest ih =>
    cases kept : keep entry with
    | true =>
      rw [filter_cons_of_pos kept]
      cases gone : goes entry with
      | true => rw [takeWhile_cons_of_pos gone, takeWhile_cons_of_pos gone, filter_cons_of_pos kept, ih]
      | false =>
        have stays : ¬ goes entry = true := by simp [gone]
        rw [takeWhile_cons_of_neg stays, takeWhile_cons_of_neg stays]
        rfl
    | false =>
      have dropped : ¬ keep entry = true := by simp [kept]
      have gone : goes entry = true := by
        by_contra stays
        exact dropped (keeps entry (by simpa using stays))
      rw [filter_cons_of_neg dropped, takeWhile_cons_of_pos gone, filter_cons_of_neg dropped, ih]

theorem behindAuth_append (other : msg ≠ .auth) : behindAuth (queue ++ [msg]) = behindAuth queue ++ [msg] :=
  rtakeWhile_concat_pos _ _ _ (by simpa using other)

theorem behindAuth_auth (queue : List MonMsg) : behindAuth (queue ++ [.auth]) = [] :=
  rtakeWhile_concat_neg _ _ _ (by simp)

theorem behindAuth_filter {keep : MonMsg → Bool} (keeps : keep .auth = true) (queue : List MonMsg) :
    behindAuth (queue.filter keep) = (behindAuth queue).filter keep := by
  unfold behindAuth rtakeWhile
  rw [← filter_reverse, takeWhile_filter, filter_reverse]
  intro entry isAuth
  have same : entry = .auth := by simpa using isAuth
  rw [same, keeps]

theorem resend_eq (opened : monc.conOpen = true) (tid : Nat) :
    monc.resend tid = { monc with
      queue := (monc.queue.filter fun msg => !decide (msg = .request tid)) ++ [.request tid] } := by
  exact if_pos opened

theorem sendPreparedAuthRequest_eq (opened : monc.conOpen = true) :
    monc.sendPreparedAuthRequest = { monc with
      pendingAuth := true
      queue := (monc.queue.filter fun msg => !decide (msg = .auth)) ++ [.auth] } := by
  exact if_pos opened

theorem sendSubscribe_eq (opened : monc.conOpen = true) (due : monc.subscribeDue = true) :
    monc.sendSubscribe = { monc with
      wantNextOsdmap := if monc.wantNextOsdmap = 0 then 0 else 2
      queue := (monc.queue.filter fun msg => !msg.isSubscribe) ++ [.subscribe monc.subscribeItems]
      subSent := monc.jiffies ||| 1 } := by
  unfold sendSubscribe msgRevoke conSend
  rw [if_pos due]
  dsimp only
  rw [if_pos opened]

/-- What a resend of one request leaves: it is there once, behind the last authentication, and all else stays where it
is. -/
theorem resend_mem (opened : monc.conOpen = true) (tid : Nat) :
    (∀ msg, msg ≠ .request tid → (msg ∈ behindAuth (monc.resend tid).queue ↔ msg ∈ behindAuth monc.queue) ∧
      (monc.resend tid).queue.count msg = monc.queue.count msg) ∧
    .request tid ∈ behindAuth (monc.resend tid).queue ∧ (monc.resend tid).queue.count (.request tid) = 1 := by
  rw [resend_eq opened]
  rw [behindAuth_append (nofun : MonMsg.request tid ≠ .auth), behindAuth_filter (by simp)]
  refine ⟨fun msg other => ⟨?_, ?_⟩, mem_append_right _ (mem_singleton_self _), ?_⟩
  · simp [other]
  · rw [count_append, count_filter (by simpa using other), count_singleton, if_neg (by simpa using other.symm)]
    rfl
  · rw [count_append, count_eq_zero_of_not_mem (by simp), count_singleton_self]

theorem resendAll_mem (opened : monc.conOpen = true) (tids : List Nat) :
    (∀ msg, (∀ tid ∈ tids, msg ≠ .request tid) →
      (msg ∈ behindAuth (tids.foldl (fun monc tid => monc.resend tid) monc).queue ↔ msg ∈ behindAuth monc.queue)) ∧
    ∀ tid, (tid ∈ tids ∨ .request tid ∈ behindAuth monc.queue ∧ monc.queue.count (.request tid) = 1) →
      .request tid ∈ behindAuth (tids.foldl (fun monc tid => monc.resend tid) monc).queue ∧
        (tids.foldl (fun monc tid => monc.resend tid) monc).queue.count (.request tid) = 1 := by
  induction tids generalizing monc with
  | nil => exact ⟨fun _ _ => Iff.rfl, fun tid known => known.resolve_left (by simp)⟩
  | cons first rest ih =>
    have stillOpen : (monc.resend first).conOpen = true := by
      rw [resend_eq opened]
      exact opened
    obtain ⟨others, there, once⟩ := resend_mem opened first
    obtain ⟨restOthers, restThere⟩ := ih stillOpen
    refine ⟨?_, ?_⟩
    · intro msg strange
      exact (restOthers msg fun tid listed => strange tid (mem_cons_of_mem _ listed)).trans
        (others msg (strange first (mem_cons_self ..))).1
    · intro tid known
      refine restThere tid ?_
      by_cases same : tid = first
      · subst same
        exact .inr ⟨there, once⟩
      · rcases known with listed | ⟨behind, count⟩
        · exact .inl ((List.mem_cons.mp listed).resolve_left same)
        · obtain ⟨stays, counted⟩ := others (.request tid) fun equal => same (by injection equal)
          exact .inr ⟨stays.mpr behind, counted.trans count⟩

theorem resendAll_frame (tids : List Nat) (monc : MonClient) :
    ∃ queue, tids.foldl (fun monc tid => monc.resend tid) monc = { monc with queue := queue } := by
  induction tids generalizing monc with
  | nil => exact ⟨monc.queue, rfl⟩
  | cons first rest ih =>
    obtain ⟨queue, same⟩ := ih (monc.resend first)
    refine ⟨queue, same.trans ?_⟩
    unfold MonClient.resend conSend msgRevoke
    split
    · rfl
    · rfl

theorem resendGenericRequest_ready (opened : monc.conOpen = true) :
    monc.resendGenericRequest.Ready ↔ monc.Subscribed := by
  obtain ⟨others, there⟩ := resendAll_mem opened monc.requests
  obtain ⟨queue, same⟩ := resendAll_frame monc.requests monc
  have subscribed : monc.resendGenericRequest.Subscribed ↔ monc.Subscribed := by
    refine exists_congr fun items => and_congr ?_ ?_
    · exact others (.subscribe items) fun _ _ => nofun
    · unfold resendGenericRequest
      rw [same]
      exact ⟨fun names => ⟨names.1, names.2, names.3⟩, fun names => ⟨names.1, names.2, names.3⟩⟩
  refine ⟨fun ready => subscribed.mp ready.subscribed, fun holds => ⟨subscribed.mpr holds, ?_⟩⟩
  intro tid listed
  refine there tid (.inl ?_)
  unfold resendGenericRequest at listed
  rw [same] at listed
  exact listed

theorem subscribeItems_names (monc : MonClient) : monc.Names monc.subscribeItems := by
  unfold subscribeItems
  refine ⟨by simp, fun wanted => ⟨monc.haveMdsmap, ?_⟩, fun wanted => ⟨monc.haveOsdmap, ?_⟩⟩
  · rw [wanted]
    simp
  · rw [if_pos wanted]
    simp

theorem sendSubscribe_subscribed (opened : monc.conOpen = true) :
    monc.sendSubscribe.Subscribed ↔ monc.subscribeDue = true ∨ monc.Subscribed := by
  by_cases due : monc.subscribeDue = true
  · refine ⟨fun _ => .inl due, fun _ => ⟨monc.subscribeItems, ?_, ?_⟩⟩
    · rw [sendSubscribe_eq opened due]
      rw [behindAuth_append (nofun : MonMsg.subscribe monc.subscribeItems ≠ .auth)]
      exact mem_append_right _ (mem_singleton_self _)
    · obtain ⟨monmap, mdsmap, osdmap⟩ := subscribeItems_names monc
      rw [sendSubscribe_eq opened due]
      refine ⟨monmap, mdsmap, fun wanted => osdmap fun nothing => ?_⟩
      rw [if_pos nothing] at wanted
      exact wanted rfl
  · rw [sendSubscribe, if_neg due]
    exact ⟨.inr, fun either => either.resolve_left due⟩

def MonClient.Kept (monc : MonClient) : Prop := monc.unproven = true → monc.conOpen = true

structure Stays (before after : MonClient) : Prop where
  conOpen : after.conOpen = before.conOpen
  unproven : after.unproven = true → before.unproven = true

theorem Stays.kept (stays : Stays before after) (kept : before.Kept) : after.Kept :=
  fun unproven => stays.conOpen.trans (kept (stays.unproven unproven))

theorem Stays.trans {middle : MonClient} (one : Stays before middle) (two : Stays middle after) : Stays before after :=
  ⟨two.conOpen.trans one.conOpen, one.unproven ∘ two.unproven⟩

theorem stays_conSend (msg : MonMsg) (monc : MonClient) : Stays monc (monc.conSend msg) := by
  rw [conSend]
  split
  · exact ⟨rfl, id⟩
  · exact ⟨rfl, id⟩

theorem stays_sendPreparedAuthRequest (monc : MonClient) : Stays monc monc.sendPreparedAuthRequest := by
  have sent := stays_conSend .auth ({ monc with pendingAuth := true }.msgRevoke fun msg => decide (msg = MonMsg.auth))
  exact ⟨sent.conOpen, sent.unproven⟩

theorem stays_sendSubscribe (monc : MonClient) : Stays monc monc.sendSubscribe := by
  rw [sendSubscribe]
  split
  · have sent := stays_conSend (.subscribe monc.subscribeItems)
      ({ monc with wantNextOsdmap := if monc.wantNextOsdmap = 0 then 0 else 2 }.msgRevoke MonMsg.isSubscribe)
    exact ⟨sent.conOpen, sent.unproven⟩
  · exact ⟨rfl, id⟩

theorem stays_requestNextOsdmap (monc : MonClient) : Stays monc monc.requestNextOsdmap := by
  let asking := { monc with wantNextOsdmap := if monc.wantNextOsdmap = 0 then 1 else monc.wantNextOsdmap }
  change Stays monc (if asking.wantNextOsdmap < 2 then asking.sendSubscribe else asking)
  split
  · have sent := stays_sendSubscribe asking
    exact ⟨sent.conOpen, sent.unproven⟩
  · exact ⟨rfl, id⟩

theorem stays_resendGenericRequest (monc : MonClient) : Stays monc monc.resendGenericRequest := by
  obtain ⟨queue, same⟩ := resendAll_frame monc.requests monc
  rw [resendGenericRequest, same]
  exact ⟨rfl, id⟩

theorem stays_validateAuth (env : BuildEnv) (monc : MonClient) : Stays monc (monc.validateAuth env) := by
  rw [MonClient.validateAuth]
  split
  · exact ⟨rfl, id⟩
  · dsimp only
    split
    · exact ⟨rfl, id⟩
    · have sent := stays_sendPreparedAuthRequest { monc with auth := (monc.auth.buildAuth monKeys env helloLen).2 }
      exact ⟨sent.conOpen, sent.unproven⟩

theorem init_opened : MonClient.init.Kept := by
  intro unproven
  cases unproven

theorem openSession_kept (kept : monc.Kept) (mon : Nat) : (monc.openSession mon).Kept := by
  rw [MonClient.openSession]
  split
  · exact kept
  · exact (stays_sendPreparedAuthRequest _).kept fun _ => rfl

theorem closeSession_kept (monc : MonClient) : monc.closeSession.Kept := nofun

theorem monFault_kept (monc : MonClient) (mon : Nat) : (monc.monFault mon).Kept := by
  rw [monFault]
  split
  · exact closeSession_kept monc
  · exact openSession_kept (closeSession_kept monc) mon

theorem delayedWork_kept (kept : monc.Kept) (env : BuildEnv) (mon : Nat) : (monc.delayedWork env mon).Kept := by
  rw [MonClient.delayedWork]
  split
  · exact openSession_kept (closeSession_kept monc) mon
  · have validated := stays_validateAuth env monc
    dsimp only
    split
    · exact (stays_sendSubscribe _).kept (validated.kept kept)
    · exact validated.kept kept

theorem handleAuthReply_eq {env : BuildEnv} {initRet : Int} {reply : MonAuthReply} {ret : Int} {auth : AuthState}
    (ran : (monc.auth.isAuthenticated monKeys env.alloc).2.handleAuthReply monKeys env initRet reply =
      .ok (ret, auth)) :
    monc.handleAuthReply env initRet reply = .ok ({ monc with
      pendingAuth := false
      auth := auth
      unproven := monc.unproven &&
        ((monc.auth.isAuthenticated monKeys env.alloc).1 || !(auth.isAuthenticated monKeys env.alloc).1) }.settle
        (monc.auth.isAuthenticated monKeys env.alloc).1 (auth.isAuthenticated monKeys env.alloc).1
        (auth.isAuthenticated monKeys env.alloc).2 ret) := by
  unfold MonClient.handleAuthReply
  dsimp only
  rw [ran]
  rfl

theorem stays_settle (wasAuth isAuth : Bool) (later : AuthState) (ret : Int) (monc : MonClient) :
    Stays monc (monc.settle wasAuth isAuth later ret) := by
  rw [MonClient.settle]
  split
  · exact ⟨rfl, id⟩
  · split
    · exact stays_sendPreparedAuthRequest monc
    · split
      · exact ⟨rfl, id⟩
      · dsimp only
        split
        · have sent := stays_sendSubscribe { monc with auth := later }
          exact Stays.trans ⟨sent.conOpen, sent.unproven⟩ (stays_resendGenericRequest _)
        · exact ⟨rfl, id⟩

theorem authReply_kept {env : BuildEnv} {initRet : Int} {reply : MonAuthReply} (kept : before.Kept)
    (ran : before.handleAuthReply env initRet reply = .ok after) : after.Kept := by
  obtain ⟨⟨ret, auth⟩, handled, -⟩ := ok_of_bind ran
  rw [handleAuthReply_eq handled] at ran
  cases ran
  refine (stays_settle _ _ _ _ _).kept fun unproven => kept ?_
  exact (Bool.and_eq_true_iff.mp unproven).1

theorem ClientCall.preserves_kept : Preserves ClientCall.run (fun _ _ => True) MonClient.Kept := by
  intro call before after _ kept ran
  cases call with
  | openSession mon =>
    cases ran
    exact openSession_kept kept mon
  | fault mon =>
    cases ran
    exact monFault_kept before mon
  | delayedWork env mon =>
    cases ran
    exact delayedWork_kept kept env mon
  | authReply env initRet reply => exact authReply_kept kept ran
  | validateAuth env =>
    cases ran
    exact (stays_validateAuth env before).kept kept
  | subscribeAck hz duration =>
    cases ran
    exact kept
  | requestNextOsdmap =>
    cases ran
    exact (stays_requestNextOsdmap before).kept kept
  | wantMdsmap =>
    cases ran
    exact kept
  | gotMdsmap epoch =>
    cases ran
    exact kept
  | gotOsdmap epoch =>
    cases ran
    exact kept
  | submit =>
    cases ran
    exact (stays_conSend _ _).kept kept
  | finish tid =>
    cases ran
    exact kept
  | transmit =>
    cases ran
    exact kept
  | pass jiffies seconds =>
    cases ran
    exact kept

/-- `handle_auth_reply` finds a session that was opened not authenticated, and then authenticated. -/
structure MonClient.Authenticates (env : BuildEnv) (initRet : Int) (reply : MonAuthReply) (ret : Int) (auth : AuthState)
    (monc : MonClient) : Prop where
  unproven : monc.unproven = true
  wasAuth : (monc.auth.isAuthenticated monKeys env.alloc).1 = false
  handled : (monc.auth.isAuthenticated monKeys env.alloc).2.handleAuthReply monKeys env initRet reply = .ok (ret, auth)
  isAuth : (auth.isAuthenticated monKeys env.alloc).1 = true

theorem settle_ready {later : AuthState} {ret : Int} (opened : monc.conOpen = true) :
    (monc.settle false true later ret).Ready ↔
      ret = 0 ∧ (monc.subscribeDue = true ∨ monc.Subscribed) ∨ ret < 0 ∧ monc.Ready := by
  rw [MonClient.settle]
  by_cases negative : ret < 0
  · rw [if_pos negative]
    exact ⟨fun ready => .inr ⟨negative, ready⟩, fun either => (either.resolve_left (by omega)).2⟩
  · rw [if_neg negative]
    by_cases positive : ret > 0
    · rw [if_pos positive, sendPreparedAuthRequest_eq opened]
      refine ⟨fun ready => ?_, fun either => by omega⟩
      obtain ⟨items, queued, -⟩ := ready.subscribed
      rw [behindAuth_auth] at queued
      cases queued
    · have zero : ret = 0 := by omega
      rw [if_neg positive, if_neg (by decide)]
      rw [if_pos rfl]
      have still : { monc with auth := later }.sendSubscribe.conOpen = true :=
        (stays_sendSubscribe { monc with auth := later }).conOpen.trans opened
      have also : { monc with auth := later }.conOpen = true := opened
      rw [resendGenericRequest_ready still, sendSubscribe_subscribed also]
      constructor
      · rintro (due | ⟨items, queued, names⟩)
        · exact .inl ⟨zero, .inl due⟩
        · exact .inl ⟨zero, .inr ⟨items, queued, names.1, names.2, names.3⟩⟩
      · rintro (⟨-, due | ⟨items, queued, names⟩⟩ | ⟨less, -⟩)
        · exact .inl due
        · exact .inr ⟨items, queued, names.1, names.2, names.3⟩
        · exact absurd less negative

/-- In all runs, where a session is authenticated for the first time, all is queued if and only if the reply was taken
and a subscribe message is due or queued, or it was not taken and all is queued. -/
theorem session_ready {env : BuildEnv} {initRet : Int} {reply : MonAuthReply} {ret : Int} {auth : AuthState}
    (reached : Reached ClientCall.run (fun _ _ => True) MonClient.init monc)
    (authenticates : monc.Authenticates env initRet reply ret auth) :
    ∃ after, (ClientCall.authReply env initRet reply).run monc = .ok after ∧
      (after.Ready ↔ ret = 0 ∧ (monc.subscribeDue = true ∨ monc.Subscribed) ∨ ret < 0 ∧ monc.Ready) := by
  have opened := reached.preserved ClientCall.preserves_kept init_opened authenticates.unproven
  refine ⟨_, handleAuthReply_eq authenticates.handled, ?_⟩
  rw [authenticates.wasAuth, authenticates.isAuth]
  have still : { monc with
      pendingAuth := false
      auth := auth
      unproven := monc.unproven && (false || !true) }.conOpen = true := opened
  refine (settle_ready still).trans ?_
  have subscribed (pending unproven : Bool) :
      { monc with pendingAuth := pending, auth := auth, unproven := unproven }.Subscribed ↔ monc.Subscribed := by
    refine exists_congr fun items => and_congr_right fun _ => ?_
    exact ⟨fun names => ⟨names.1, names.2, names.3⟩, fun names => ⟨names.1, names.2, names.3⟩⟩
  refine or_congr (and_congr_right fun _ => or_congr Iff.rfl (subscribed _ _)) (and_congr_right fun _ => ?_)
  exact ⟨fun ready => ⟨(subscribed _ _).mp ready.1, ready.2⟩, fun ready => ⟨(subscribed _ _).mpr ready.1, ready.2⟩⟩

end

def roomy : BuildEnv where
  alloc _ := true
  room := 4096
  encrypt := .ok ()
  authorizer := .ok []

def greeted : MonClient := { MonClient.init.openSession 0 with queue := [] }

theorem greeted_reached : Reached ClientCall.run (fun _ _ => True) MonClient.init greeted :=
  (Reached.start.next (.openSession 0) trivial rfl).next .transmit trivial rfl

def hurried : MonClient := { greeted.requestNextOsdmap with queue := [] }

theorem hurried_reached : Reached ClientCall.run (fun _ _ => True) MonClient.init hurried :=
  (greeted_reached.next .requestNextOsdmap trivial rfl).next .transmit trivial rfl

def plainReply (result : Int) : MonAuthReply := .reply cephAuthNone result ⟨false, .unknown, []⟩

def proven : AuthState where
  method := some (.plain false)
  negotiating := false
  clock := 0

def waiting : MonClient := { greeted.submit with queue := [] }

theorem waiting_reached : Reached ClientCall.run (fun _ _ => True) MonClient.init waiting :=
  (greeted_reached.next .submit trivial rfl).next .transmit trivial rfl

/-- A request was sent before the session is authenticated, and is sent again with the subscription. -/
theorem session_ready_waiting : waiting.requests = [1] ∧
    ∃ after, (ClientCall.authReply roomy 0 (plainReply 0)).run waiting = .ok after ∧
      (after.Ready ↔ (0 : Int) = 0 ∧ (waiting.subscribeDue = true ∨ waiting.Subscribed) ∨
        (0 : Int) < 0 ∧ waiting.Ready) := by
  have authenticates : waiting.Authenticates roomy 0 (plainReply 0) 0 proven := ⟨rfl, rfl, rfl, rfl⟩
  exact ⟨rfl, session_ready waiting_reached authenticates⟩

/-- A session gets no subscribe message if one was sent before it was authenticated, or if the reply is an error. -/
theorem session_unsubscribed :
    (Reached ClientCall.run (fun _ _ => True) MonClient.init hurried ∧
      hurried.Authenticates roomy 0 (plainReply 0) 0 proven ∧ hurried.wantNextOsdmap = 2 ∧
      (hurried.handleAuthReply roomy 0 (plainReply 0)).map MonClient.queue = .ok []) ∧
    Reached ClientCall.run (fun _ _ => True) MonClient.init greeted ∧
      greeted.Authenticates roomy 0 (plainReply (-13)) (-13) proven ∧
      (greeted.handleAuthReply roomy 0 (plainReply (-13))).map MonClient.queue = .ok [] :=
  ⟨⟨hurried_reached, ⟨rfl, rfl, rfl, rfl⟩, rfl, rfl⟩, greeted_reached, ⟨rfl, rfl, rfl, rfl⟩, rfl⟩

end KmodCeph.Mon
