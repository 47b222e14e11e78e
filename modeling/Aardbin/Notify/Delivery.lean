import Aardbin.Notify.Announced
import Aardbin.Effect.Broadcast
import Aardbin.PlainVendor

/-!
# Every write reaches the event streams

The server with its broadcast channel and the subscribers of `/events`.  Once all requests have
ended, a subscriber has got or will get a message that was sent after the last write.
-/

namespace Aardbin

open Effect

/-! ## The event stream -/

/-- The capacity given to `broadcast::channel`. -/
def eventsCapacity : ℕ := 64

/-- The next item of a `BroadcastStream`; `none` ends the stream. -/
def broadcastStream : Received Unit → Option (Except ℕ Unit)
  | .message _ m => some (.ok m)
  | .lagged missed => some (.error missed)
  | .closed => none

structure SseEvent where
  event : String
  data : String
  deriving DecidableEq

def dataChanged : SseEvent :=
  { event := "data_changed", data := "{}" }

/-- The item that `events` makes of what its receiver gets. -/
def events (r : Received Unit) : Option SseEvent :=
  (broadcastStream r).map fun _ => dataChanged

/-! ## The server and its subscribers -/

structure Feed where
  pool : Pool Reply Server Response
  channel : Broadcast Unit
  /-- number of subscriptions so far; the next one gets this number -/
  subscribed : ℕ

inductive FeedEvent
  | server (e : Event Reply Env Boot Request Response)
  | subscribe (i : ℕ)
  | poll (i : ℕ) (r : Received Unit)
  | leave (i : ℕ)

inductive FeedMove
  | server (m : Move Env Boot Request)
  | subscribe
  | poll (i : ℕ)
  | leave (i : ℕ)

namespace FeedEvent

def server? : FeedEvent → Option (Event Reply Env Boot Request Response)
  | .server e => some e
  | _ => none

def isSend : FeedEvent → Bool
  | .server (.ask _ _ .send _) => true
  | _ => false

/-- Does the event write to one of the tables? -/
def writes : FeedEvent → Bool
  | .server (.ask _ _ op r) => op.writes r
  | _ => false

def subscribes (i : ℕ) : FeedEvent → Bool
  | .subscribe j => j = i
  | _ => false

def leaves (i : ℕ) : FeedEvent → Bool
  | .leave j => j = i
  | _ => false

end FeedEvent

/-- The number of messages sent so far. -/
def sends (tr : List FeedEvent) : ℕ :=
  tr.countP FeedEvent.isSend

/-- The part of a history that the server sees. -/
def serverLog (tr : List FeedEvent) : Log :=
  tr.filterMap FeedEvent.server?

namespace Feed

def idle (s : Server) : Feed :=
  { pool := Pool.idle s, channel := Broadcast.open? eventsCapacity, subscribed := 0 }

/-- A `send` with no receiver is an error that the handlers ignore; no later subscriber would see
the message either. -/
def announce (channel : Broadcast Unit) (e : Event Reply Env Boot Request Response) :
    Broadcast Unit :=
  if (FeedEvent.server e).isSend then channel.send () else channel

def move (f : Feed) : FeedMove → Option (FeedEvent × Feed)
  | .server m =>
      match server.move f.pool m with
      | none => none
      | some (e, pool) => some (.server e, { f with pool, channel := announce f.channel e })
  | .subscribe =>
      some (.subscribe f.subscribed,
        { f with channel := f.channel.subscribe f.subscribed, subscribed := f.subscribed + 1 })
  | .poll i =>
      match f.channel.recv i with
      | none => none
      | some (r, channel) => some (.poll i r, { f with channel })
  | .leave i =>
      match f.channel.cursor i with
      | none => none
      | some _ => some (.leave i, { f with channel := f.channel.unsubscribe i })

/-- Only the server is restricted. -/
def Admits (tr : List FeedEvent) (f : Feed) : FeedEvent → Prop
  | .server e => OnlyForeignKey (serverLog tr) f.pool e
  | _ => True

instance (tr : List FeedEvent) (f : Feed) : (e : FeedEvent) → Decidable (Admits tr f e)
  | .server e => inferInstanceAs (Decidable (OnlyForeignKey (serverLog tr) f.pool e))
  | .subscribe _ => inferInstanceAs (Decidable True)
  | .poll _ _ => inferInstanceAs (Decidable True)
  | .leave _ => inferInstanceAs (Decidable True)

/-- Any interleaving of requests and subscribers. -/
inductive Run (s₀ : Server) : List FeedEvent → Feed → Prop
  | refl : Run s₀ [] (idle s₀)
  | snoc {tr : List FeedEvent} {f f' : Feed} {m : FeedMove} {e : FeedEvent} :
      Run s₀ tr f → f.move m = some (e, f') → Admits tr f e → Run s₀ (tr ++ [e]) f'

theorem move_cases {f f' : Feed} {m : FeedMove} {e : FeedEvent} (h : f.move m = some (e, f')) :
    (∃ m' e' pool, server.move f.pool m' = some (e', pool) ∧ e = .server e' ∧
      f' = { f with pool, channel := announce f.channel e' }) ∨
    (e = .subscribe f.subscribed ∧
      f' = { f with channel := f.channel.subscribe f.subscribed, subscribed := f.subscribed + 1 }) ∨
    (∃ i r channel, f.channel.recv i = some (r, channel) ∧ e = .poll i r ∧
      f' = { f with channel }) ∨
    (∃ i, e = .leave i ∧ f' = { f with channel := f.channel.unsubscribe i }) := by
  cases m with
  | server m =>
      simp only [move] at h
      split at h
      · cases h
      · rename_i e' pool hm
        cases h
        exact .inl ⟨m, e', pool, hm, rfl, rfl⟩
  | subscribe =>
      cases h
      exact .inr (.inl ⟨rfl, rfl⟩)
  | poll i =>
      simp only [move] at h
      split at h
      · cases h
      · rename_i r channel hrecv
        cases h
        exact .inr (.inr (.inl ⟨i, r, channel, hrecv, rfl, rfl⟩))
  | leave i =>
      simp only [move] at h
      split at h
      · cases h
      · cases h
        exact .inr (.inr (.inr ⟨i, rfl, rfl⟩))

/-- Extends a history by the moves of a schedule, if all of them are possible and admitted. -/
def play : List FeedMove → List FeedEvent → Feed → Option (List FeedEvent × Feed)
  | [], tr, f => some (tr, f)
  | m :: ms, tr, f =>
      match f.move m with
      | none => none
      | some (e, f') => if Admits tr f e then play ms (tr ++ [e]) f' else none

theorem Run.of_play {s₀ : Server} {ms : List FeedMove} {tr tr' : List FeedEvent} {f f' : Feed}
    (hrun : Run s₀ tr f) (h : play ms tr f = some (tr', f')) : Run s₀ tr' f' := by
  induction ms generalizing tr f with
  | nil =>
      cases h
      exact hrun
  | cons m ms ih =>
      simp only [play] at h
      split at h
      · cases h
      · rename_i e f₁ hm
        split_ifs at h with hadmits
        exact ih (.snoc hrun hm hadmits) h

/-- A schedule that plays to its end shows that a run with the property `P` exists. -/
theorem exists_run (ms : List FeedMove) {s₀ : Server} {P : List FeedEvent → Feed → Bool}
    (h : ((play ms [] (idle s₀)).any fun x => P x.1 x.2) = true) :
    ∃ tr f, Run s₀ tr f ∧ P tr f = true := by
  cases hplay : play ms [] (idle s₀) with
  | none => simp [hplay] at h
  | some x => exact ⟨x.1, x.2, .of_play .refl hplay, by simpa [hplay] using h⟩

end Feed

/-! ## What the subscribers have got -/

theorem sends_snoc (tr : List FeedEvent) (e : FeedEvent) :
    sends (tr ++ [e]) = sends tr + if e.isSend then 1 else 0 := by
  simp [sends, List.countP_singleton]

theorem serverLog_other (tr : List FeedEvent) {e : FeedEvent} (he : e.server? = none) :
    serverLog (tr ++ [e]) = serverLog tr := by
  simp [serverLog, he]

/-- Subscriber `i` has subscribed after `start` messages. -/
def SubscribedAt (tr : List FeedEvent) (i start : ℕ) : Prop :=
  ∃ before after, tr = before ++ .subscribe i :: after ∧ sends before = start

theorem subscribedAt_snoc {tr : List FeedEvent} {e : FeedEvent} {i start : ℕ} :
    SubscribedAt (tr ++ [e]) i start ↔
      SubscribedAt tr i start ∨ (e = .subscribe i ∧ start = sends tr) := by
  constructor
  · rintro ⟨before, after, heq, rfl⟩
    rcases snoc_eq_append_cons.1 heq with ⟨rfl, he, -⟩ | ⟨after', -, hold⟩
    · exact .inr ⟨he, rfl⟩
    · exact .inl ⟨before, after', hold, rfl⟩
  · rintro (⟨before, after, rfl, rfl⟩ | ⟨rfl, rfl⟩)
    · exact ⟨before, after ++ [e], by simp, rfl⟩
    · exact ⟨tr, [], rfl, rfl⟩

structure Heard (s₀ : Server) (tr : List FeedEvent) (f : Feed) : Prop where
  run : server.Run OnlyForeignKey s₀ (serverLog tr) f.pool
  capacity : f.channel.capacity = eventsCapacity
  opened : f.channel.closed = false
  sent : f.channel.sent.length = sends tr
  numbered : ∀ i start, SubscribedAt tr i start → i < f.subscribed
  tracks : ∀ i start, SubscribedAt tr i start → .leave i ∉ tr →
    ∃ n, Broadcast.Tracks f.channel i start n fun k => ∃ m, .poll i (.message k m) ∈ tr
  polls : ∀ i r, .poll i r ∈ tr → r ≠ .closed

namespace Heard

variable {s₀ : Server} {tr : List FeedEvent} {f : Feed}

theorem init (s₀ : Server) : Heard s₀ [] (Feed.idle s₀) where
  run := .refl
  capacity := rfl
  opened := rfl
  sent := rfl
  numbered := by
    rintro i start ⟨before, after, heq, -⟩
    simp at heq
  tracks := by
    rintro i start ⟨before, after, heq, -⟩
    simp at heq
  polls := by
    intro i r hmem
    cases hmem

theorem server (h : Heard s₀ tr f) {m : Move Env Boot Request}
    {e : Event Reply Env Boot Request Response} {pool : Pool Reply Server Response}
    (hm : Aardbin.server.move f.pool m = some (e, pool))
    (hguard : OnlyForeignKey (serverLog tr) f.pool e) :
    Heard s₀ (tr ++ [.server e]) { f with pool, channel := Feed.announce f.channel e } where
  run := by
    rw [serverLog, List.filterMap_append]
    exact .snoc h.run hm hguard
  capacity := by
    unfold Feed.announce
    split <;> exact h.capacity
  opened := by
    unfold Feed.announce
    split <;> exact h.opened
  sent := by
    rw [sends_snoc, ← h.sent]
    unfold Feed.announce
    split <;> simp [Broadcast.send]
  numbered := by
    intro i start hsub
    rcases subscribedAt_snoc.1 hsub with hold | ⟨heq, -⟩
    · exact h.numbered i start hold
    · cases heq
  tracks := by
    intro i start hsub hleave
    rcases subscribedAt_snoc.1 hsub with hold | ⟨heq, -⟩
    · -- An announcement is one more message ahead of the subscriber.
      rcases h.tracks i start hold (fun hmem => hleave (by simp [hmem])) with ⟨n, htracks⟩
      have hgot := htracks.mono (fun k hk => show ∃ m, _ ∈ tr ++ [.server e] from
        hk.imp fun _ hmem => List.mem_append_left _ hmem)
      refine ⟨n, ?_⟩
      unfold Feed.announce
      split
      · exact hgot.send ()
      · exact hgot
    · cases heq
  polls := by
    intro i r hmem
    refine h.polls i r ?_
    simpa using hmem

theorem subscribe (h : Heard s₀ tr f) :
    Heard s₀ (tr ++ [.subscribe f.subscribed])
      { f with channel := f.channel.subscribe f.subscribed, subscribed := f.subscribed + 1 } where
  run := by
    rw [serverLog_other tr rfl]
    exact h.run
  capacity := h.capacity
  opened := h.opened
  sent := by simpa [sends_snoc, FeedEvent.isSend, Broadcast.subscribe] using h.sent
  numbered := by
    intro i start hsub
    rcases subscribedAt_snoc.1 hsub with hold | ⟨heq, -⟩
    · exact Nat.lt_succ_of_lt (h.numbered i start hold)
    · cases heq
      exact Nat.lt_succ_self _
  tracks := by
    intro i start hsub hleave
    rcases subscribedAt_snoc.1 hsub with hold | ⟨heq, rfl⟩
    · have hne : i ≠ f.subscribed := (h.numbered i start hold).ne
      rcases h.tracks i start hold (fun hmem => hleave (by simp [hmem])) with ⟨n, htracks⟩
      refine ⟨n, (htracks.other hne _).mono fun k => ?_⟩
      rintro ⟨m, hmem⟩
      exact ⟨m, by simp [hmem]⟩
    · -- The new subscriber starts behind all that was sent.
      cases heq
      refine ⟨f.channel.sent.length, ?_⟩
      rw [← h.sent]
      exact .subscribe _ _ _
  polls := by
    intro i r hmem
    refine h.polls i r ?_
    simpa using hmem

theorem poll (h : Heard s₀ tr f) {i : ℕ} {r : Received Unit} {channel : Broadcast Unit}
    (hrecv : f.channel.recv i = some (r, channel)) :
    Heard s₀ (tr ++ [.poll i r]) { f with channel } := by
  rcases Broadcast.recv_of_open h.opened hrecv with ⟨hr, n', rfl⟩
  refine ⟨?_, h.capacity, h.opened, ?_, ?_, ?_, ?_⟩
  · rw [serverLog_other tr rfl]
    exact h.run
  · simpa [sends_snoc, FeedEvent.isSend] using h.sent
  · intro j start hsub
    rcases subscribedAt_snoc.1 hsub with hold | ⟨heq, -⟩
    · exact h.numbered j start hold
    · cases heq
  · intro j start hsub hleave
    rcases subscribedAt_snoc.1 hsub with hold | ⟨heq, -⟩
    · rcases h.tracks j start hold (fun hmem => hleave (by simp [hmem])) with ⟨n, htracks⟩
      by_cases hji : j = i
      · -- What the poll took from the channel is now in the history.
        subst hji
        rcases htracks.recv h.opened hrecv with ⟨n'', hnew⟩
        refine ⟨n'', hnew.mono fun k => ?_⟩
        rintro (⟨m, hmem⟩ | ⟨m, rfl⟩)
        · exact ⟨m, by simp [hmem]⟩
        · exact ⟨m, by simp⟩
      · refine ⟨n, (htracks.other hji _).mono fun k => ?_⟩
        rintro ⟨m, hmem⟩
        exact ⟨m, by simp [hmem]⟩
    · cases heq
  · intro j r' hmem
    rcases List.mem_append.1 hmem with hold | hnew
    · exact h.polls j r' hold
    · cases List.mem_singleton.1 hnew
      exact hr

theorem leave (h : Heard s₀ tr f) (i : ℕ) :
    Heard s₀ (tr ++ [.leave i]) { f with channel := f.channel.unsubscribe i } where
  run := by
    rw [serverLog_other tr rfl]
    exact h.run
  capacity := h.capacity
  opened := h.opened
  sent := by simpa [sends_snoc, FeedEvent.isSend, Broadcast.unsubscribe] using h.sent
  numbered := by
    intro j start hsub
    rcases subscribedAt_snoc.1 hsub with hold | ⟨heq, -⟩
    · exact h.numbered j start hold
    · cases heq
  tracks := by
    intro j start hsub hleave
    rcases subscribedAt_snoc.1 hsub with hold | ⟨heq, -⟩
    · have hne : j ≠ i := by
        rintro rfl
        exact hleave (by simp)
      rcases h.tracks j start hold (fun hmem => hleave (by simp [hmem])) with ⟨n, htracks⟩
      refine ⟨n, (htracks.other hne _).mono fun k => ?_⟩
      rintro ⟨m, hmem⟩
      exact ⟨m, by simp [hmem]⟩
    · cases heq
  polls := by
    intro j r hmem
    refine h.polls j r ?_
    simpa using hmem

theorem of_run (h : Feed.Run s₀ tr f) : Heard s₀ tr f := by
  induction h with
  | refl => exact init s₀
  | snoc _ hm hadmits ih =>
      rcases Feed.move_cases hm with ⟨m', e', pool, hm', rfl, rfl⟩ | ⟨rfl, rfl⟩ |
        ⟨i, r, channel, hrecv, rfl, rfl⟩ | ⟨i, rfl, rfl⟩
      · exact ih.server hm' hadmits
      · exact ih.subscribe
      · exact ih.poll hrecv
      · exact ih.leave i

end Heard

/-! ## After a write -/

theorem unsent_of_no_send {tr : List FeedEvent} (h : sends tr = 0) :
    (serverLog tr).foldl unsentAfter true = true := by
  induction tr with
  | nil => rfl
  | cons e tr ih =>
      simp only [sends, List.countP_cons, Nat.add_eq_zero_iff, ite_eq_right_iff, one_ne_zero,
        imp_false, Bool.not_eq_true] at h
      have hrest : (serverLog tr).foldl unsentAfter true = true := ih h.1
      cases e with
      | server e =>
          have hstep : unsentAfter true e = true := by
            cases e with
            | ask j env op r =>
                cases op with
                | send => exact absurd h.2 (by simp [FeedEvent.isSend])
                | _ => rfl
            | _ => rfl
          simpa [serverLog, FeedEvent.server?, hstep] using hrest
      | _ => exact hrest

/-- If nothing is unsent, a message was sent after every write. -/
theorem sends_after_write {before after : List FeedEvent} {e : FeedEvent} (hwrites : e.writes = true)
    (h : unsent (serverLog (before ++ e :: after)) = false) : 0 < sends after := by
  by_contra hnone
  have hsends : sends after = 0 := by omega
  have hlog : serverLog (before ++ e :: after) = serverLog before ++ serverLog (e :: after) := by
    simp [serverLog]
  cases e with
  | server e =>
      cases e with
      | ask j env op r =>
          have hstep : ∀ b, unsentAfter b (.ask j env op r) = true := by
            intro b
            have hop : op ≠ .send := by
              rintro rfl
              cases hwrites
            have hr : op.writes r = true := hwrites
            simp [unsentAfter, unsentStep, hop, hr]
          have htrue : unsent (serverLog (before ++ .server (.ask j env op r) :: after)) = true := by
            calc
              unsent (serverLog (before ++ .server (.ask j env op r) :: after))
                  = (serverLog after).foldl unsentAfter
                      (unsentAfter (unsent (serverLog before)) (.ask j env op r)) := by
                        rw [hlog, unsent, List.foldl_append]
                        rfl
              _ = (serverLog after).foldl unsentAfter true := by rw [hstep]
              _ = true := unsent_of_no_send hsends
          rw [htrue] at h
          cases h
      | _ => cases hwrites
  | _ => cases hwrites

/-- Subscriber `i` has got `r`, or will get it by polling. -/
def Reaches (tr : List FeedEvent) (f : Feed) (i : ℕ) (r : Received Unit) : Prop :=
  .poll i r ∈ tr ∨ ∃ n, r ∈ Broadcast.drain i n f.channel

/-- Whenever no request is in flight, a message sent after the write reaches every subscriber that
subscribed before the write, and no stream has come to its end. -/
theorem write_reaches_subscribers {app : AppState} {w : Store}
    (hids : ∀ id ∈ w.db.recordIds, id ∈ w.issued) {tr : List FeedEvent} {f : Feed}
    (hrun : Feed.Run { app, store := w } tr f) (hquiet : f.pool.Quiet) :
    (∀ before e after i, tr = before ++ e :: after → e.writes = true → .subscribe i ∈ before →
      .leave i ∉ tr → ∃ k, sends before ≤ k ∧ Reaches tr f i (.message k ())) ∧
    ∀ i r, Reaches tr f i r → events r = some dataChanged := by
  have hheard := Heard.of_run hrun
  constructor
  · rintro before e after i rfl hwrites hsub hleave
    have hafter : 0 < sends after :=
      sends_after_write hwrites (unsent_of_quiet hids hheard.run hquiet)
    -- The last message sent comes after the write, and every subscriber gets the last message.
    have htotal : sends (before ++ e :: after) = sends before + sends (e :: after) := by
      simp [sends]
    have htail : sends after ≤ sends (e :: after) := by
      simp [sends, List.countP_cons]
    rcases List.append_of_mem hsub with ⟨early, late, rfl⟩
    have hearly : sends early ≤ sends (early ++ .subscribe i :: late) := by
      simp [sends]
    have hstart : SubscribedAt (early ++ .subscribe i :: late ++ e :: after) i (sends early) :=
      ⟨early, late ++ e :: after, by simp, rfl⟩
    rcases hheard.tracks i _ hstart hleave with ⟨n, htracks⟩
    have hsent := hheard.sent
    have hlast := htracks.last_message hheard.opened (hheard.capacity ▸ Nat.succ_pos 63)
      (by omega)
    refine ⟨f.channel.sent.length - 1, by omega, ?_⟩
    rcases hlast with ⟨m, hgot⟩ | ⟨n, m, hpending⟩
    · exact .inl hgot
    · exact .inr ⟨n, hpending⟩
  · intro i r hreaches
    have hr : r ≠ .closed := by
      rcases hreaches with hgot | ⟨n, hpending⟩
      · exact hheard.polls i r hgot
      · exact Broadcast.ne_closed_of_mem_drain hheard.opened hpending
    cases r with
    | closed => exact absurd rfl hr
    | _ => rfl

/-- A subscriber, then a record that is saved without files. -/
theorem write_reaches_subscribers_run : ∃ tr f, Feed.Run { app := .plain, store := .empty } tr f ∧
    ∃ k, Reaches tr f 0 (.message k ()) := by
  have hplay : ∃ tr f, Feed.Run { app := .plain, store := .empty } tr f ∧
      (f.pool.quietBelow && (tr[0]?.any (FeedEvent.subscribes 0) &&
        (tr[5]?.any FeedEvent.writes && !tr.any (FeedEvent.leaves 0)))) = true := by
    refine Feed.exists_run ([.subscribe, .server (.start (.create noHeaders (form "c" "d" [])))] ++
      (stepsOf 0 [{ uuid := "r1" }, {}, {}, {}, {}, {}]).map .server) ?_
    decide
  rcases hplay with ⟨tr, f, hrun, hfacts⟩
  refine ⟨tr, f, hrun, ?_⟩
  simp only [Bool.and_eq_true, Bool.not_eq_true', Option.any_eq_true, List.any_eq_false] at hfacts
  rcases hfacts with ⟨hquiet, ⟨e₀, hfirst, hsub⟩, ⟨e, hfifth, hwrites⟩, hleave⟩
  obtain rfl : e₀ = .subscribe 0 := by
    cases e₀ with
    | subscribe j => exact congrArg _ (of_decide_eq_true hsub)
    | _ => cases hsub
  rcases List.getElem?_eq_some_iff.1 hfifth with ⟨hlt, hget⟩
  have hsplit : tr = tr.take 5 ++ e :: tr.drop 6 := by
    rw [← hget, List.cons_getElem_drop_succ, List.take_append_drop]
  have hmem : .subscribe 0 ∈ tr.take 5 := by
    refine @List.mem_of_getElem? _ _ 0 _ ?_
    rw [List.getElem?_take_of_lt (by decide), hfirst]
  rcases (write_reaches_subscribers (by simp [Store.empty, Db.empty, Db.recordIds]) hrun
    ((Heard.of_run hrun).run.quiet hquiet)).1 _ _ _ 0 hsplit hwrites hmem
    (fun hleaves => hleave _ hleaves (by simp [FeedEvent.leaves])) with ⟨k, -, hreaches⟩
  exact ⟨k, hreaches⟩

end Aardbin
