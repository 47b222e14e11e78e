import Aardbin.Live.Stream
import Aardbin.Live.Tab

/-!
# What is under way between the process and a page

As long as the page does not show the list as it is, there is a reason for which it will ask again,
or it has lost a refresh.  A write gives the first reason: it will be announced; each step on the
way from there hands it on: to the receiver of the stream, to the wire, to the timer, to the
request of the region.
-/

namespace Aardbin
namespace Http
namespace Live

open Effect

/-! ## Histories -/

theorem processLog_snoc (tr : LiveLog) (e : LiveEvent) :
    processLog (tr ++ [e]) = processLog tr ++ e.server?.toList := by
  rw [processLog, List.filterMap_append]
  cases h : e.server? <;> simp [processLog, h]

theorem processLog_none (tr : LiveLog) {e : LiveEvent} (h : e.server? = none) :
    processLog (tr ++ [e]) = processLog tr := by
  simp [processLog_snoc, h]

theorem processLog_some (tr : LiveLog) {e : LiveEvent} {ev : Event Reply Env Boot Request Answer}
    (h : e.server? = some ev) : processLog (tr ++ [e]) = processLog tr ++ [ev] := by
  simp [processLog_snoc, h]

theorem lost_snoc (tr : LiveLog) (e : LiveEvent) :
    lost (tr ++ [e]) = (e.loses || (lost tr && !e.writes)) := by
  rw [lost, List.foldl_append]
  rfl

/-- The request `i` is one of the page's own. -/
def Sent (tr : LiveLog) (i : ℕ) (req : Request) : Prop :=
  ∃ e, .tab e ∈ tr ∧ e.sent? = some (i, req)

theorem Sent.mono {tr : LiveLog} {i : ℕ} {req : Request} (h : Sent tr i req) (e : LiveEvent) :
    Sent (tr ++ [e]) i req := by
  rcases h with ⟨t, ht, hsent⟩
  exact ⟨t, List.mem_append_left _ ht, hsent⟩

theorem sent_snoc {tr : LiveLog} {e : LiveEvent} {i : ℕ} {req : Request}
    (h : Sent (tr ++ [e]) i req) : Sent tr i req ∨ e.server? = some (.start i req) := by
  rcases h with ⟨t, ht, hsent⟩
  rcases List.mem_append.1 ht with hold | hnew
  · exact .inl ⟨t, hold, hsent⟩
  · rw [← List.mem_singleton.1 hnew]
    exact .inr (by simp [LiveEvent.server?, hsent])

theorem Sent.start {tr : LiveLog} {i : ℕ} {req : Request} (h : Sent tr i req) :
    .start i req ∈ processLog tr := by
  rcases h with ⟨t, ht, hsent⟩
  exact List.mem_filterMap.2 ⟨_, ht, by simp [LiveEvent.server?, hsent]⟩

theorem writes_tab (e : TabEvent) : (LiveEvent.tab e).writes = false := by
  cases h : e.sent? <;> simp [LiveEvent.writes, LiveEvent.server?, h, Http.writes]

theorem unannounced_tab (tr : LiveLog) (e : TabEvent) :
    unannounced (processLog (tr ++ [.tab e])) = unannounced (processLog tr) := by
  cases h : e.sent? with
  | none => rw [processLog_none tr (by simp [LiveEvent.server?, h])]
  | some x =>
      have hev : (LiveEvent.tab e).server? = some (.start x.1 x.2) := by
        simp [LiveEvent.server?, h]
      rw [processLog_some tr hev, unannounced_snoc]
      rfl

theorem fresh_keep {tr : LiveLog} {e : LiveEvent} {i : ℕ} (h : Fresh (processLog tr) i)
    (hwrites : e.writes = false) : Fresh (processLog (tr ++ [e])) i := by
  cases hev : e.server? with
  | none => rwa [processLog_none tr hev]
  | some ev =>
      rw [processLog_some tr hev]
      exact fresh_snoc.2 (.inr ⟨h, by simpa [LiveEvent.writes, hev] using hwrites⟩)

theorem fresh_start (tr : LiveLog) {e : LiveEvent} {i : ℕ} {req : Request}
    (h : e.server? = some (.start i req)) : Fresh (processLog (tr ++ [e])) i := by
  rw [processLog_some tr h]
  exact fresh_snoc.2 (.inl ⟨req, rfl⟩)

theorem fresh_before {tr : LiveLog} {e : LiveEvent} {i : ℕ}
    (h : Fresh (processLog (tr ++ [e])) i) :
    (∃ req, e.server? = some (.start i req)) ∨ (Fresh (processLog tr) i ∧ e.writes = false) := by
  cases hev : e.server? with
  | none =>
      rw [processLog_none tr hev] at h
      exact .inr ⟨h, by simp [LiveEvent.writes, hev]⟩
  | some ev =>
      rw [processLog_some tr hev] at h
      rcases fresh_snoc.1 h with ⟨req, rfl⟩ | ⟨hold, hwrites⟩
      · exact .inl ⟨req, rfl⟩
      · exact .inr ⟨hold, by simpa [LiveEvent.writes, hev] using hwrites⟩

/-! ## What is under way -/

/-- The region is the list of the tables, as a request of the page asks for it. -/
def Current (tr : LiveLog) (l : State) : Prop :=
  ∃ i req q, Sent tr i req ∧ req.endpoint = .recordsPartial (some q) ∧
    Region l.pool.shared.server.app l.pool.shared.server.store.db req.headers.readable q
      l.tab.region

/-- Why the page will still come to the list as it is, or has come to it, or will not. -/
inductive Due (tr : LiveLog) (l : State) : Prop
  /-- somebody will announce the last write -/
  | unsent (h : unannounced (processLog tr) = true)
  | unread (i n : ℕ) (hi : l.tab.source.stream? = some i) (hn : l.channel.cursor i = some n)
      (hlt : n < l.channel.sent.length)
  | unopened (h : ∀ i, l.tab.source ≠ .opened i)
  | wire (h : l.tab.wire ≠ [])
  | timer (h : l.tab.timer = true)
  | queued (h : l.tab.queued = true)
  | fetching (i : ℕ) (hi : l.tab.fetch.number? = some i) (h : Fresh (processLog tr) i)
  | current (h : Current tr l)
      (hfetch : ∀ i, l.tab.fetch.number? = some i → Fresh (processLog tr) i)
  | lost (h : lost tr = true)

def SameTables (l l' : State) : Prop :=
  l'.pool.shared.server.app = l.pool.shared.server.app ∧
    l'.pool.shared.server.store.db = l.pool.shared.server.store.db

/-- The page has noticed no more than answers on their way. -/
structure Tab.Like (t t' : Tab) : Prop where
  opened : ∀ i, t'.source = .opened i → t.source = .opened i
  number : t'.source.number? = t.source.number?
  stream : ∀ i, t.source.stream? = some i → t'.source.stream? = some i
  wire : t'.wire = t.wire
  timer : t'.timer = t.timer
  region : t'.region = t.region
  fetch : t'.fetch.number? = t.fetch.number?
  queued : t'.queued = t.queued

theorem Tab.Like.refl (t : Tab) : t.Like t :=
  ⟨fun _ h => h, rfl, fun _ h => h, rfl, rfl, rfl, rfl, rfl⟩

theorem EventSource.number?_hear (i : ℕ) (a : Answer) (source : EventSource) :
    (source.hear i a).number? = source.number? := by
  cases source with
  | requested j =>
      simp only [EventSource.hear]
      split_ifs with h
      · exact congrArg some h.symm
      · rfl
  | _ => rfl

theorem Fetch.number?_hear (i : ℕ) (a : Answer) (fetch : Fetch) :
    (fetch.hear i a).number? = fetch.number? := by
  cases fetch with
  | requested j =>
      simp only [Fetch.hear]
      split_ifs with h
      · exact congrArg some h.symm
      · rfl
  | _ => rfl

theorem Tab.like_hear (t : Tab) (i : ℕ) (a : Answer) : t.Like (t.hear i a) where
  opened := by
    intro j hj
    simp only [Tab.hear] at hj
    cases hsource : t.source with
    | requested k =>
        rw [hsource] at hj
        simp only [EventSource.hear] at hj
        split_ifs at hj
    | _ =>
        rw [hsource] at hj
        exact hj
  number := EventSource.number?_hear i a t.source
  stream := by
    intro j hj
    simp only [Tab.hear]
    cases hsource : t.source with
    | requested k =>
        rw [hsource] at hj
        cases hj
    | _ =>
        rw [hsource] at hj
        exact hj
  wire := rfl
  timer := rfl
  region := rfl
  fetch := Fetch.number?_hear i a t.fetch
  queued := rfl

theorem Current.keep {tr : LiveLog} {l l' : State} (h : Current tr l) (e : LiveEvent)
    (hsame : SameTables l l') (hregion : l'.tab.region = l.tab.region) :
    Current (tr ++ [e]) l' := by
  rcases h with ⟨i, req, q, hsent, hq, hlist⟩
  refine ⟨i, req, q, hsent.mono e, hq, ?_⟩
  rwa [hsame.1, hsame.2, hregion]

/-- A step of which the page notices nothing yet. -/
theorem Due.step {tr : LiveLog} {l l' : State} {e : LiveEvent} (h : Due tr l)
    (hlike : l.tab.Like l'.tab) (hwrites : e.writes = true → Due (tr ++ [e]) l')
    (hunsent : Http.unannounced (processLog tr) = true → Due (tr ++ [e]) l')
    (hsame : e.writes = false → SameTables l l')
    (hcursor : ∀ i, l.tab.source.stream? = some i → l'.channel.cursor i = l.channel.cursor i)
    (hlen : l.channel.sent.length ≤ l'.channel.sent.length) : Due (tr ++ [e]) l' := by
  cases hw : e.writes with
  | true => exact hwrites hw
  | false =>
      cases h with
      | unsent h => exact hunsent h
      | unread i n hi hn hlt =>
          exact .unread i n (hlike.stream i hi) ((hcursor i hi).trans hn) (hlt.trans_le hlen)
      | unopened h => exact .unopened fun i hi => h i (hlike.opened i hi)
      | wire h => exact .wire (hlike.wire ▸ h)
      | timer h => exact .timer (hlike.timer ▸ h)
      | queued h => exact .queued (hlike.queued ▸ h)
      | fetching i hi h => exact .fetching i (hlike.fetch ▸ hi) (fresh_keep h hw)
      | current h hfetch =>
          refine .current (h.keep e (hsame hw) hlike.region) fun i hi => ?_
          rw [hlike.fetch] at hi
          exact fresh_keep (hfetch i hi) hw
      | lost h => exact .lost (by simp [lost_snoc, h, hw])

structure Synced (w₀ : World) (tr : LiveLog) (l : State) : Prop where
  run : app.Run Orderly w₀ (processLog tr) l.pool
  sameApp : l.pool.shared.server.app = w₀.server.app
  opened : l.channel.closed = false
  /-- the stream has a receiver, as soon as its request has subscribed -/
  heard : ∀ i, l.tab.source.number? = some i →
    (∃ env r, .ask i env .subscribe r ∈ processLog tr) →
    ∃ n, l.channel.cursor i = some n ∧ n ≤ l.channel.sent.length
  started : ∀ i, l.tab.source.number? = some i → i < l.pool.started
  stream : ∀ i, l.tab.source.stream? = some i → l.pool.threads i = none ∧
    ∃ env r, .ask i env .subscribe r ∈ processLog tr
  wire : ∀ ev ∈ l.tab.wire, ev = dataChanged
  queued : l.tab.queued = true → l.tab.fetch.number? ≠ none
  fetch : ∀ i, l.tab.fetch.number? = some i → i < l.pool.started ∧
    ∃ req x, Sent tr i req ∧ req.endpoint = .recordsPartial x
  shows : ∀ i a req, l.tab.fetch = .answered i a → Sent tr i req → Fresh (processLog tr) i →
    ShowsRegion l.pool.shared.server req a
  due : Due tr l

theorem EventSource.number?_of_stream? {source : EventSource} {i : ℕ}
    (h : source.stream? = some i) : source.number? = some i := by
  cases source with
  | answered j a =>
      cases a with
      | stream => exact h
      | _ => cases h
  | opened j => exact h
  | _ => cases h

/-! ## Steps of the process -/

section Server

variable {w₀ : World} {tr : LiveLog} {l : State} {m : Move Env Boot Request}
  {ev : Event Reply Env Boot Request Answer} {pool : Pool Reply World Answer}

theorem announce_cases (channel : Broadcast Unit) (hreboot : ∀ b, ev ≠ .reboot b) :
    (channelAfter channel ev = channel ∧ (∀ j env r, ev ≠ .ask j env .subscribe r) ∧
      ∀ j env r, ev ≠ .ask j env (.store .send) r) ∨
    (∃ j env r, ev = .ask j env .subscribe r ∧ channelAfter channel ev = channel.subscribe j) ∨
    ∃ j env r, ev = .ask j env (.store .send) r ∧ channelAfter channel ev = channel.send () := by
  cases ev with
  | ask j env op r =>
      cases op with
      | subscribe => exact .inr (.inl ⟨j, env, r, rfl, rfl⟩)
      | store c =>
          cases c with
          | send => exact .inr (.inr ⟨j, env, r, rfl, rfl⟩)
          | _ => exact .inl ⟨rfl, nofun, nofun⟩
      | _ => exact .inl ⟨rfl, nofun, nofun⟩
  | reboot b => exact absurd rfl (hreboot b)
  | _ => exact .inl ⟨rfl, nofun, nofun⟩

theorem unannouncedAfter_true (h : ∀ j env r, ev ≠ .ask j env (.store .send) r) :
    unannouncedAfter true ev = true := by
  cases ev with
  | ask j env op r =>
      cases op with
      | store c =>
          have hne : c ≠ .send := by
            rintro rfl
            exact h j env r rfl
          simp [unannouncedAfter, unsentStep, hne]
      | _ => rfl
  | _ => rfl

theorem unannouncedAfter_of_writes (h : Http.writes ev = true) (b : Bool) : unannouncedAfter b ev = true := by
  cases ev with
  | ask j env op r =>
      cases op with
      | store c =>
          have hne : c ≠ .send := by
            rintro rfl
            cases h
          have hr : c.writes r = true := h
          simp [unannouncedAfter, unsentStep, hne, hr]
      | _ => cases h
  | _ => cases h

theorem app_of_move (hm : app.move l.pool m = some (ev, pool)) (hreboot : ∀ b, ev ≠ .reboot b) :
    pool.shared.server.app = l.pool.shared.server.app := by
  rcases Service.move_cases hm with ⟨req, -, rfl⟩ | ⟨i, a, -, -, rfl⟩ |
    ⟨i, env, op, k, r, w, -, hans, rfl, rfl⟩ | ⟨i, p, -, -, rfl⟩ | ⟨b, rfl, -⟩
  · rfl
  · rfl
  · exact World.app_answer hans
  · rfl
  · exact absurd rfl (hreboot b)

theorem db_of_move (hm : app.move l.pool m = some (ev, pool)) (hreboot : ∀ b, ev ≠ .reboot b)
    (hwrites : Http.writes ev = false) :
    pool.shared.server.store.db = l.pool.shared.server.store.db := by
  rcases Service.move_cases hm with ⟨req, -, rfl⟩ | ⟨i, a, -, -, rfl⟩ |
    ⟨i, env, op, k, r, w, -, hans, rfl, rfl⟩ | ⟨i, p, -, -, rfl⟩ | ⟨b, rfl, -⟩
  · rfl
  · rfl
  · exact (World.server_of_not_writes hans hwrites).2
  · rfl
  · exact absurd rfl (hreboot b)

theorem Tab.like_notice (t : Tab) (hreboot : ∀ b, ev ≠ .reboot b) : t.Like (t.notice ev) := by
  cases ev with
  | finish i a => exact t.like_hear i a
  | reboot b => exact absurd rfl (hreboot b)
  | _ => exact .refl t

theorem Tab.stream_notice {t : Tab} {i : ℕ} (h : (t.notice ev).source.stream? = some i)
    (hold : t.source.stream? = none) : ev = .finish i .stream ∧ t.source = .requested i := by
  cases ev with
  | finish j a =>
      simp only [Tab.notice, Tab.hear] at h
      cases hsource : t.source with
      | requested k =>
          rw [hsource] at h
          simp only [EventSource.hear] at h
          split_ifs at h with hkj
          · subst hkj
            cases a with
            | stream =>
                cases h
                exact ⟨rfl, rfl⟩
            | _ => cases h
          · cases h
      | _ =>
          rw [hsource] at h hold
          cases hold.symm.trans h
  | reboot b =>
      simp only [Tab.notice, Tab.disconnect] at h
      split_ifs at h <;> cases h
  | _ => cases hold.symm.trans h

theorem Tab.fetch_notice {t : Tab} {i : ℕ} {a : Answer} (h : (t.notice ev).fetch = .answered i a) :
    t.fetch = .answered i a ∨ (ev = .finish i a ∧ t.fetch = .requested i) := by
  cases ev with
  | finish j b =>
      simp only [Tab.notice, Tab.hear] at h
      cases hfetch : t.fetch with
      | requested k =>
          rw [hfetch] at h
          simp only [Fetch.hear] at h
          split_ifs at h with hkj
          subst hkj
          cases h
          exact .inr ⟨rfl, rfl⟩
      | _ =>
          rw [hfetch] at h
          exact .inl h
  | _ => exact .inl h

/-- A stream that is open has its receiver. -/
theorem Synced.cursor (h : Synced w₀ tr l) {i : ℕ} (hi : l.tab.source.stream? = some i) :
    ∃ n, l.channel.cursor i = some n ∧ n ≤ l.channel.sent.length :=
  h.heard i (EventSource.number?_of_stream? hi) (h.stream i hi).2

/-- A request in flight asks, so it is not that of an open stream. -/
theorem ask_of_move {i : ℕ} {env : Env} {op : Call} {r : Reply op}
    (hm : app.move l.pool m = some (.ask i env op r, pool)) : l.pool.threads i ≠ none := by
  rcases Service.move_cases hm with ⟨req, heq, -⟩ | ⟨j, a, -, heq, -⟩ |
    ⟨j, env', op', k, r', w, ht, -, heq, -⟩ | ⟨j, p, -, heq, -⟩ | ⟨b, heq, -⟩ <;> cases heq
  rw [ht]
  exact nofun

theorem Synced.due_server (h : Synced w₀ tr l) (hm : app.move l.pool m = some (ev, pool))
    (hreboot : ∀ b, ev ≠ .reboot b) :
    Due (tr ++ [.server ev])
      { pool, channel := channelAfter l.channel ev, tab := l.tab.notice ev } := by
  have hlog : processLog (tr ++ [.server ev]) = processLog tr ++ [ev] := processLog_some tr rfl
  have hlike := l.tab.like_notice hreboot
  refine h.due.step hlike ?_ ?_ ?_ ?_ ?_
  · intro hwrites
    refine .unsent ?_
    rw [hlog, unannounced_snoc]
    exact unannouncedAfter_of_writes hwrites _
  · intro hunsent
    rcases announce_cases l.channel hreboot with ⟨-, -, hsend⟩ | ⟨j, env, r, rfl, -⟩ |
      ⟨j, env, r, rfl, hchannel⟩
    · refine .unsent ?_
      rw [hlog, unannounced_snoc, hunsent]
      exact unannouncedAfter_true hsend
    · refine .unsent ?_
      rw [hlog, unannounced_snoc, hunsent]
      rfl
    · -- The announcement is one more message for the stream.
      cases hi : l.tab.source.stream? with
      | none =>
          refine .unopened fun i hopened => ?_
          have hsource : l.tab.source = .opened i := hlike.opened i hopened
          rw [hsource] at hi
          cases hi
      | some i =>
          rcases h.cursor hi with ⟨n, hn, hle⟩
          refine .unread i n (hlike.stream i hi) ?_ ?_
          · simpa [channelAfter, Broadcast.send] using hn
          · simp only [channelAfter, Broadcast.send, List.length_append, List.length_singleton]
            exact Nat.lt_succ_of_le hle
  · exact fun hwrites => ⟨app_of_move hm hreboot, db_of_move hm hreboot hwrites⟩
  · intro i hi
    rcases announce_cases l.channel hreboot with ⟨hchannel, -, -⟩ | ⟨j, env, r, rfl, hchannel⟩ |
      ⟨j, env, r, rfl, hchannel⟩
    · rw [hchannel]
    · have hne : i ≠ j := by
        rintro rfl
        exact ask_of_move hm (h.stream i hi).1
      exact Broadcast.cursor_setCursor_ne _ _ hne
    · rfl
  · rcases announce_cases l.channel hreboot with ⟨hchannel, -, -⟩ | ⟨j, env, r, rfl, hchannel⟩ |
      ⟨j, env, r, rfl, hchannel⟩
    · dsimp only
      rw [hchannel]
    · exact Nat.le_refl _
    · simp [channelAfter, Broadcast.send]

/-- What has been answered so far is shown by what the answers were then. -/
theorem Synced.shows_keep (h : Synced w₀ tr l) {e : LiveEvent} {w : World}
    (hstart : ∀ j req, e.server? = some (.start j req) → l.pool.started ≤ j)
    (hsame : e.writes = false → w.server.app = l.pool.shared.server.app ∧
      w.server.store.db = l.pool.shared.server.store.db) {i : ℕ} {a : Answer} {req : Request}
    (ha : l.tab.fetch = .answered i a) (hsent : Sent (tr ++ [e]) i req)
    (hfresh : Fresh (processLog (tr ++ [e])) i) : ShowsRegion w.server req a := by
  have hlt : i < l.pool.started := (h.fetch i (by rw [ha]; rfl)).1
  have hold : ∀ req, e.server? ≠ some (.start i req) := fun req heq =>
    absurd (hstart i req heq) (Nat.not_le_of_lt hlt)
  rcases fresh_before hfresh with ⟨req', heq⟩ | ⟨hfresh, hwrites⟩
  · exact absurd heq (hold req')
  · rcases sent_snoc hsent with hsent | heq
    · rcases hsame hwrites with ⟨happ, hdb⟩
      intro x resp html hx hresp hhtml
      rw [happ, hdb]
      exact h.shows i a req ha hsent hfresh x resp html hx hresp hhtml
    · exact absurd heq (hold req)

theorem start_of_move {j : ℕ} {req : Request}
    (hm : app.move l.pool m = some (.start j req, pool)) : j = l.pool.started := by
  rcases Service.move_cases hm with ⟨req', heq, -⟩ | ⟨i, a, -, heq, -⟩ |
    ⟨i, env, op, k, r, w, -, -, heq, -⟩ | ⟨i, p, -, heq, -⟩ | ⟨b, heq, -⟩ <;> cases heq
  rfl

theorem finish_of_move {i : ℕ} {a : Answer} (hm : app.move l.pool m = some (.finish i a, pool)) :
    l.pool.threads i = some (.done a) ∧ pool = l.pool.setThread i none := by
  rcases Service.move_cases hm with ⟨req', heq, -⟩ | ⟨j, a', ht, heq, hpool⟩ |
    ⟨j, env, op, k, r, w, -, -, heq, -⟩ | ⟨j, p, -, heq, -⟩ | ⟨b, heq, -⟩ <;> cases heq
  exact ⟨ht, hpool⟩

theorem started_of_move (hm : app.move l.pool m = some (ev, pool)) :
    l.pool.started ≤ pool.started := by
  rcases Service.move_cases hm with ⟨req, -, rfl⟩ | ⟨i, a, -, -, rfl⟩ |
    ⟨i, env, op, k, r, w, -, -, -, rfl⟩ | ⟨i, p, -, -, rfl⟩ | ⟨b, -, rfl⟩
  · exact Nat.le_succ _
  · exact Nat.le_refl _
  · exact Nat.le_refl _
  · exact Nat.le_refl _
  · exact Nat.le_refl _

theorem Synced.server (h : Synced w₀ tr l) (hm : app.move l.pool m = some (ev, pool))
    (hguard : Orderly (processLog tr) l.pool ev) :
    Synced w₀ (tr ++ [.server ev])
      { pool, channel := channelAfter l.channel ev, tab := l.tab.notice ev } := by
  have hlog : processLog (tr ++ [.server ev]) = processLog tr ++ [ev] := processLog_some tr rfl
  have hreboot : ∀ b, ev ≠ .reboot b := by
    rintro b rfl
    exact hguard
  have hlike := l.tab.like_notice hreboot
  have hrun : app.Run Orderly w₀ (processLog (tr ++ [.server ev])) pool := by
    rw [hlog]
    exact h.run.snoc hm hguard
  have hmono : ∀ {i}, (∃ env r, .ask i env .subscribe r ∈ processLog tr) →
      ∃ env r, .ask i env .subscribe r ∈ processLog (tr ++ [.server ev]) := by
    rintro i ⟨env, r, hmem⟩
    exact ⟨env, r, by simp [hlog, hmem]⟩
  refine ⟨hrun, (app_of_move hm hreboot).trans h.sameApp, ?_, ?_, ?_, ?_, ?_, ?_, ?_, ?_,
    h.due_server hm hreboot⟩
  · rcases announce_cases l.channel hreboot with ⟨hchannel, -, -⟩ | ⟨j, env, r, rfl, -⟩ |
      ⟨j, env, r, rfl, -⟩
    · dsimp only
      rw [hchannel]
      exact h.opened
    · exact h.opened
    · exact h.opened
  · intro i hi hasked
    rw [hlike.number] at hi
    rw [hlog] at hasked
    rcases announce_cases l.channel hreboot with ⟨hchannel, hsub, -⟩ | ⟨j, env, r, rfl, -⟩ |
      ⟨j, env, r, rfl, -⟩
    · dsimp only
      rw [hchannel]
      refine h.heard i hi ?_
      rcases hasked with ⟨env, r, hmem⟩
      rcases List.mem_append.1 hmem with hold | hnew
      · exact ⟨env, r, hold⟩
      · exact absurd (List.mem_singleton.1 hnew).symm (hsub i env r)
    · by_cases hij : i = j
      · -- The new receiver starts behind all that was sent.
        subst hij
        exact ⟨_, Broadcast.cursor_setCursor .., Nat.le_refl _⟩
      · refine (h.heard i hi ?_).imp fun n hn => ⟨?_, hn.2⟩
        · rcases hasked with ⟨env', r', hmem⟩
          exact ⟨env', r', by simpa [hij] using hmem⟩
        · exact (Broadcast.cursor_setCursor_ne _ _ hij).trans hn.1
    · refine (h.heard i hi ?_).imp fun n hn => ⟨hn.1, ?_⟩
      · rcases hasked with ⟨env', r', hmem⟩
        exact ⟨env', r', by simpa using hmem⟩
      · simpa [channelAfter, Broadcast.send] using Nat.le_succ_of_le hn.2
  · intro i hi
    rw [hlike.number] at hi
    exact (h.started i hi).trans_le (started_of_move hm)
  · intro i hi
    cases hold : l.tab.source.stream? with
    | some j =>
        have hji : some j = some i := (hlike.stream j hold).symm.trans hi
        cases hji
        rcases h.stream i hold with ⟨hnone, hasked⟩
        have hlt := h.started i (EventSource.number?_of_stream? hold)
        exact ⟨(Service.move_ended hm hlt hnone).2, hmono hasked⟩
    | none =>
        -- The answer to the stream's request comes with this event.
        rcases Tab.stream_notice hi hold with ⟨rfl, -⟩
        rcases finish_of_move hm with ⟨-, rfl⟩
        refine ⟨Function.update_self .., subscribed_of_stream hrun ?_⟩
        simp [hlog]
  · intro e he
    rw [hlike.wire] at he
    exact h.wire e he
  · intro hq
    rw [hlike.queued] at hq
    rw [hlike.fetch]
    exact h.queued hq
  · intro i hi
    rw [hlike.fetch] at hi
    rcases h.fetch i hi with ⟨hlt, req, x, hsent, hx⟩
    exact ⟨hlt.trans_le (started_of_move hm), req, x, hsent.mono _, hx⟩
  · intro i a req ha hsent hfresh
    rcases Tab.fetch_notice ha with hold | ⟨rfl, -⟩
    · refine h.shows_keep ?_ ?_ hold hsent hfresh
      · rintro j req' heq
        cases heq
        exact (start_of_move hm).ge
      · exact fun hwrites => ⟨app_of_move hm hreboot, db_of_move hm hreboot hwrites⟩
    · rcases finish_of_move hm with ⟨ht, rfl⟩
      rcases sent_snoc hsent with hsent | heq
      · rcases fresh_before hfresh with ⟨req', heq⟩ | ⟨hfresh, -⟩
        · cases heq
        · exact answer_shows h.run ht hsent.start hfresh
      · cases heq

end Server

/-! ## Steps of the connections -/

section Connections

variable {w₀ : World} {tr : LiveLog} {l : State} {i : ℕ}

theorem events_of_ne_closed {r : Received Unit} (h : r ≠ .closed) :
    events r = some dataChanged := by
  cases r with
  | closed => exact absurd rfl h
  | _ => rfl

/-- A receiver moves; the page gets what there is for it. -/
theorem Synced.channel (h : Synced w₀ tr l) {e : LiveEvent} (he : e.server? = none)
    {channel : Broadcast Unit} {n : Option ℕ} {more : List SseEvent}
    (hchannel : channel = l.channel.setCursor i n)
    (hn : l.tab.source.number? = some i → ∃ n', n = some n' ∧ n' ≤ l.channel.sent.length)
    (hmore : ∀ ev ∈ more, ev = dataChanged)
    (hgot : l.tab.source.stream? = some i → more ≠ []) :
    Synced w₀ (tr ++ [e])
      { l with channel, tab := { l.tab with wire := l.tab.wire ++ more } } := by
  subst hchannel
  have hlog : processLog (tr ++ [e]) = processLog tr := processLog_none tr he
  have hwrites : e.writes = false := by simp [LiveEvent.writes, he]
  refine ⟨hlog ▸ h.run, h.sameApp, h.opened, ?_, h.started, hlog ▸ h.stream, ?_, h.queued, ?_, ?_,
    ?_⟩
  · intro j hj hasked
    rw [hlog] at hasked
    by_cases hji : j = i
    · subst hji
      rcases hn hj with ⟨n', rfl, hle⟩
      exact ⟨n', Broadcast.cursor_setCursor .., hle⟩
    · rcases h.heard j hj hasked with ⟨n', hcursor, hle⟩
      exact ⟨n', (Broadcast.cursor_setCursor_ne _ _ hji).trans hcursor, hle⟩
  · intro ev hev
    exact (List.mem_append.1 hev).elim (h.wire ev) (hmore ev)
  · intro j hj
    rcases h.fetch j hj with ⟨hlt, req, x, hsent, hx⟩
    exact ⟨hlt, req, x, hsent.mono e, hx⟩
  · intro j a req ha hsent hfresh
    refine h.shows_keep ?_ (fun _ => ⟨rfl, rfl⟩) ha hsent hfresh
    intro k req' heq
    rw [he] at heq
    cases heq
  · by_cases hmine : l.tab.source.stream? = some i ∨ more ≠ []
    · refine .wire ?_
      have hne : more ≠ [] := hmine.elim hgot id
      exact fun hnil => hne (List.append_eq_nil_iff.1 hnil).2
    · -- The receiver of somebody else.
      rw [not_or, not_not] at hmine
      rcases hmine with ⟨hother, rfl⟩
      have hlike : l.tab.Like { l.tab with wire := l.tab.wire ++ [] } := by
        rw [List.append_nil]
        exact .refl _
      refine h.due.step hlike ?_ ?_ (fun _ => ⟨rfl, rfl⟩) ?_ (Nat.le_refl _)
      · intro hw
        rw [hwrites] at hw
        cases hw
      · exact fun hunsent => .unsent (hlog ▸ hunsent)
      · intro j hj
        refine Broadcast.cursor_setCursor_ne _ _ ?_
        rintro rfl
        exact hother hj

theorem Synced.poll (h : Synced w₀ tr l) {r : Received Unit} {channel : Broadcast Unit}
    (hrecv : l.channel.recv i = some (r, channel)) :
    Synced w₀ (tr ++ [.poll i r]) { l with channel, tab := l.tab.receive i r } := by
  rcases Broadcast.recv_position h.opened hrecv with ⟨n, hchannel, hle⟩
  have hr : events r = some dataChanged :=
    events_of_ne_closed (Broadcast.recv_of_open h.opened hrecv).1
  unfold Tab.receive
  split_ifs with hi
  · refine h.channel rfl hchannel (fun _ => ⟨n, rfl, hle⟩) ?_ ?_
    · simp [hr]
    · simp [hr]
  · have hnone : l.tab = { l.tab with wire := l.tab.wire ++ [] } := by
      rw [List.append_nil]
    rw [hnone]
    exact h.channel rfl hchannel (fun _ => ⟨n, rfl, hle⟩) (by simp) fun hmine => absurd hmine hi

theorem Synced.leave (h : Synced w₀ tr l) (hi : l.tab.source.number? ≠ some i) :
    Synced w₀ (tr ++ [.leave i]) { l with channel := l.channel.unsubscribe i } := by
  have hnone : l.tab = { l.tab with wire := l.tab.wire ++ [] } := by
    rw [List.append_nil]
  rw [hnone]
  refine h.channel rfl rfl (fun hmine => absurd hmine hi) (by simp) fun hmine => ?_
  exact absurd (EventSource.number?_of_stream? hmine) hi

end Connections

/-! ## Steps of the page -/

section Page

variable {w₀ : World} {tr : LiveLog} {l l' : State} {t : TabEvent}

theorem Synced.asked_lt (h : Synced w₀ tr l) {i : ℕ} {env : Env} {op : Call} {r : Reply op}
    (hmem : .ask i env op r ∈ processLog tr) : i < l.pool.started := by
  by_contra hlt
  rcases (listing_valid Orderly).run (listing_nil w₀) h.run with ⟨gs, -, -, hnew⟩
  exact (hnew i (Nat.le_of_not_lt hlt)).2 _ hmem rfl

/-- A step of the page, which may send a request, to a state in which something is due. -/
theorem Synced.tab (h : Synced w₀ tr l)
    (hpool : (t.sent? = none ∧ l'.pool = l.pool) ∨
      ∃ req, t.sent? = some (l.pool.started, req) ∧ l'.pool = (l.send req).pool)
    (hchannel : l'.channel = l.channel)
    (hsource : ∀ i, l'.tab.source.number? = some i →
      (l.tab.source.number? = some i ∧
        (l'.tab.source.stream? = some i → l.tab.source.stream? = some i)) ∨
      (i = l.pool.started ∧ t.sent? ≠ none ∧ l'.tab.source.stream? = none))
    (hwire : ∀ ev ∈ l'.tab.wire, ev ∈ l.tab.wire)
    (hqueued : l'.tab.queued = true → l'.tab.fetch.number? ≠ none)
    (hfetch : l'.tab.fetch = l.tab.fetch ∨ l'.tab.fetch = .idle ∨
      ∃ req x, t.sent? = some (l.pool.started, req) ∧ req.endpoint = .recordsPartial x ∧
        l'.tab.fetch = .requested l.pool.started)
    (hdue : Due (tr ++ [.tab t]) l') : Synced w₀ (tr ++ [.tab t]) l' := by
  have hstarted : l.pool.started ≤ l'.pool.started ∧
      (t.sent? ≠ none → l.pool.started < l'.pool.started) := by
    rcases hpool with ⟨hnone, heq⟩ | ⟨req, -, heq⟩
    · exact ⟨heq ▸ Nat.le_refl _, fun hne => absurd hnone hne⟩
    · rw [heq]
      exact ⟨Nat.le_succ _, fun _ => Nat.lt_succ_self _⟩
  have hshared : l'.pool.shared = l.pool.shared := by
    rcases hpool with ⟨-, heq⟩ | ⟨req, -, heq⟩ <;> rw [heq]
    rfl
  have hthreads : ∀ i, i < l.pool.started → l.pool.threads i = none → l'.pool.threads i = none := by
    intro i hlt hnone
    rcases hpool with ⟨-, heq⟩ | ⟨req, -, heq⟩
    · rwa [heq]
    · rw [heq]
      simpa [State.send, Pool.setThread, Nat.ne_of_lt hlt] using hnone
  have hlog : ∀ i env r, .ask i env .subscribe r ∈ processLog (tr ++ [.tab t]) ↔
      .ask i env .subscribe r ∈ processLog tr := by
    intro i env r
    cases hsent : t.sent? <;> simp [processLog_snoc, LiveEvent.server?, hsent]
  refine ⟨?_, by rw [hshared, h.sameApp], hchannel ▸ h.opened, ?_, ?_, ?_,
    fun ev hev => h.wire ev (hwire ev hev), hqueued, ?_, ?_, hdue⟩
  · rcases hpool with ⟨hnone, heq⟩ | ⟨req, hsome, heq⟩
    · rw [processLog_none tr (by simp [LiveEvent.server?, hnone]), heq]
      exact h.run
    · have hev : (LiveEvent.tab t).server? = some (.start l.pool.started req) := by
        simp [LiveEvent.server?, hsome]
      rw [processLog_some tr hev, heq]
      exact h.run.snoc (m := .start req) rfl trivial
  · intro i hi hasked
    simp only [hlog] at hasked
    rw [hchannel]
    rcases hsource i hi with ⟨hold, -⟩ | ⟨rfl, -, -⟩
    · exact h.heard i hold hasked
    · -- The request is new, so it has not asked anything.
      rcases hasked with ⟨env, r, hmem⟩
      exact absurd (h.asked_lt hmem) (Nat.lt_irrefl _)
  · intro i hi
    rcases hsource i hi with ⟨hold, -⟩ | ⟨rfl, hsent, -⟩
    · exact (h.started i hold).trans_le hstarted.1
    · exact hstarted.2 hsent
  · intro i hi
    simp only [hlog]
    rcases hsource i (EventSource.number?_of_stream? hi) with ⟨hold, hstream⟩ | ⟨-, -, hnone⟩
    · rcases h.stream i (hstream hi) with ⟨hnone, hasked⟩
      exact ⟨hthreads i (h.started i hold) hnone, hasked⟩
    · rw [hnone] at hi
      cases hi
  · intro i hi
    rcases hfetch with heq | heq | ⟨req, x, hsent, hx, heq⟩
    · rw [heq] at hi
      rcases h.fetch i hi with ⟨hlt, req, x, hsent, hx⟩
      exact ⟨hlt.trans_le hstarted.1, req, x, hsent.mono _, hx⟩
    · rw [heq] at hi
      cases hi
    · rw [heq] at hi
      cases hi
      exact ⟨hstarted.2 (by simp [hsent]), req, x, ⟨t, by simp, hsent⟩, hx⟩
  · intro i a req ha hsent hfresh
    rcases hfetch with heq | heq | ⟨req', x, -, -, heq⟩
    · rw [hshared]
      refine h.shows_keep ?_ (fun _ => ⟨rfl, rfl⟩) (heq ▸ ha) hsent hfresh
      intro j req' hj
      rcases hpool with ⟨hnone, -⟩ | ⟨req'', hsome, -⟩
      · simp [LiveEvent.server?, hnone] at hj
      · have hstart : l.pool.started = j ∧ req'' = req' := by
          simpa [LiveEvent.server?, hsome] using hj
        exact hstart.1.le
    · rw [heq] at ha
      cases ha
    · rw [heq] at ha
      cases ha

theorem refresh_cases (hxGet : String → Option PageQuery) (l : State) (headers : Headers)
    (addr : Option IpAddr) :
    (l.tab.fetch = .idle ∧ ∃ req, req.endpoint = .recordsPartial (hxGet l.tab.region) ∧
      l.refresh hxGet headers addr = (some (l.pool.started, req),
        { l.send req with tab := { l.tab with fetch := .requested l.pool.started } })) ∨
    (l.tab.fetch.number? ≠ none ∧
      l.refresh hxGet headers addr = (none, { l with tab := { l.tab with queued := true } })) := by
  unfold State.refresh
  cases l.tab.fetch with
  | idle => exact .inl ⟨rfl, _, rfl, rfl⟩
  | _ => exact .inr ⟨nofun, rfl⟩

/-- The page asks for its region, or will. -/
theorem Synced.refresh (h : Synced w₀ tr l) {tab : Tab} {hxGet : String → Option PageQuery}
    {headers : Headers} {addr : Option IpAddr}
    (hsent : t.sent? = (State.refresh hxGet { l with tab } headers addr).1)
    (hsource : ∀ i, tab.source.number? = some i → l.tab.source.number? = some i ∧
      (tab.source.stream? = some i → l.tab.source.stream? = some i))
    (hwire : ∀ ev ∈ tab.wire, ev ∈ l.tab.wire)
    (hfetch : tab.fetch = l.tab.fetch ∨ tab.fetch = .idle) :
    Synced w₀ (tr ++ [.tab t]) (State.refresh hxGet { l with tab } headers addr).2 := by
  rcases refresh_cases hxGet { l with tab } headers addr with ⟨hidle, req, hreq, heq⟩ | ⟨hbusy, heq⟩
  · rw [heq] at hsent ⊢
    dsimp only at hsent
    refine h.tab (.inr ⟨req, hsent, rfl⟩) rfl (fun i hi => .inl (hsource i hi)) hwire ?_ ?_ ?_
    · exact fun _ => nofun
    · exact .inr (.inr ⟨req, _, hsent, hreq, rfl⟩)
    · have hstart : (LiveEvent.tab t).server? = some (.start l.pool.started req) := by
        simp [LiveEvent.server?, hsent]
      exact .fetching l.pool.started rfl (fresh_start tr hstart)
  · rw [heq] at hsent ⊢
    exact h.tab (.inl ⟨hsent, rfl⟩) rfl (fun i hi => .inl (hsource i hi)) hwire (fun _ => hbusy)
      (hfetch.imp id .inl) (.queued rfl)

theorem Synced.connect (h : Synced w₀ tr l) {req : Request} :
    Synced w₀ (tr ++ [.tab (.connect l.pool.started req)])
      { l.send req with tab := { l.tab with source := .requested l.pool.started } } := by
  refine h.tab (.inr ⟨req, rfl, rfl⟩) rfl ?_ (fun _ hev => hev) h.queued (.inl rfl)
    (.unopened nofun)
  rintro i ⟨⟩
  exact .inr ⟨rfl, nofun, rfl⟩

/-- The page loses its stream. -/
theorem Synced.cut (h : Synced w₀ tr l) {t : TabEvent} (ht : t.sent? = none)
    {source : EventSource} {wire : List SseEvent} (hsource : source.number? = none)
    (hwire : ∀ ev ∈ wire, ev ∈ l.tab.wire) :
    Synced w₀ (tr ++ [.tab t]) { l with tab := { l.tab with source, wire } } := by
  refine h.tab (.inl ⟨ht, rfl⟩) rfl ?_ hwire h.queued (.inl rfl) (.unopened ?_)
  · intro i hi
    rw [hsource] at hi
    cases hi
  · rintro i rfl
    cases hsource

theorem Synced.deliver (h : Synced w₀ tr l) {ev : SseEvent} {wire : List SseEvent}
    (hwire : l.tab.wire = ev :: wire) :
    Synced w₀ (tr ++ [.tab (.delivered ev)])
      { l with tab := { l.tab with wire, timer := l.tab.timer || ev.event = "data_changed" } } := by
  have hev : ev = dataChanged := h.wire ev (by simp [hwire])
  refine h.tab (.inl ⟨rfl, rfl⟩) rfl (fun i hi => .inl ⟨hi, id⟩) ?_ h.queued (.inl rfl)
    (.timer ?_)
  · intro ev' hev'
    rw [hwire]
    exact List.mem_cons_of_mem _ hev'
  · simp [hev, dataChanged]

/-- The region is the list as it is, or the reason to ask for it again is still there. -/
theorem Synced.swap (h : Synced w₀ tr l) {i : ℕ} {resp : Response} {region : String}
    (hfetch : l.tab.fetch = .answered i (.response resp)) (hregion : resp.region? = some region) :
    Synced w₀ (tr ++ [.tab (.swapped l.tab.queued)])
      { l with tab := { l.tab with region, fetch := .idle, queued := false } } := by
  have hnumber : l.tab.fetch.number? = some i := by rw [hfetch]; rfl
  refine h.tab (.inl ⟨rfl, rfl⟩) rfl (fun j hj => .inl ⟨hj, id⟩) (fun _ hev => hev) nofun
    (.inr (.inl rfl)) ?_
  by_cases hfresh : Fresh (processLog tr) i
  · rcases h.fetch i hnumber with ⟨-, req, x, hsent, hx⟩
    rcases h.shows i _ req hfetch hsent hfresh x resp region hx rfl hregion with ⟨q, rfl, hlist⟩
    exact .current ⟨i, req, q, hsent.mono _, hx, hlist⟩ nofun
  · cases h.due with
    | unsent hunsent => exact .unsent ((unannounced_tab tr _).trans hunsent)
    | unread j n hj hn hlt => exact .unread j n hj hn hlt
    | unopened hopened => exact .unopened hopened
    | wire hwire => exact .wire hwire
    | timer htimer => exact .timer htimer
    | queued hqueued =>
        refine .lost ?_
        rw [lost_snoc, LiveEvent.loses, hqueued]
        rfl
    | fetching j hj hfresh' =>
        obtain rfl : i = j := Option.some.inj (hnumber.symm.trans hj)
        exact absurd hfresh' hfresh
    | current _ hfresh' => exact absurd (hfresh' i hnumber) hfresh
    | lost hlost => exact .lost (by simp [lost_snoc, hlost, writes_tab])

/-- The page gets no region, and nothing has waited for that. -/
theorem Synced.miss (h : Synced w₀ tr l) :
    Synced w₀ (tr ++ [.tab (.missed none)])
      { l with tab := { l.tab with fetch := .idle, queued := false } } :=
  h.tab (.inl ⟨rfl, rfl⟩) rfl (fun i hi => .inl ⟨hi, id⟩) (fun _ hev => hev) nofun
    (.inr (.inl rfl)) (.lost (by simp [lost_snoc, LiveEvent.loses]))

end Page

/-! ## Every run -/

theorem Synced.init (w₀ : World) (region : String) : Synced w₀ [] (State.begin w₀ region) where
  run := .refl
  sameApp := rfl
  opened := rfl
  heard := by
    intro i hi
    cases hi
  started := by
    intro i hi
    cases hi
  stream := by
    intro i hi
    cases hi
  wire := by
    intro ev hev
    cases hev
  queued := by
    intro hqueued
    cases hqueued
  fetch := by
    intro i hi
    cases hi
  shows := by
    intro i a req ha
    cases ha
  due := by
    refine .unopened fun i hi => ?_
    cases hi

theorem Synced.move {w₀ : World} {tr : LiveLog} {l l' : State} (h : Synced w₀ tr l)
    {hxGet : String → Option PageQuery} {m : LiveMove} {e : LiveEvent}
    (hm : l.move hxGet m = some (e, l')) (hadmits : State.Admits tr l e) :
    Synced w₀ (tr ++ [e]) l' := by
  cases m with
  | server m =>
      simp only [State.move] at hm
      split at hm
      · cases hm
      · rename_i ev pool hmove
        cases hm
        exact h.server hmove hadmits
  | poll i =>
      simp only [State.move] at hm
      split at hm
      · rename_i r channel hthread hrecv
        cases hm
        exact h.poll hrecv
      · cases hm
  | leave i =>
      simp only [State.move] at hm
      split_ifs at hm with hi
      cases hm
      exact h.leave hi
  | connect headers addr =>
      simp only [State.move] at hm
      split at hm
      · cases hm
        exact h.connect
      · cases hm
  | accept headers addr =>
      simp only [State.move] at hm
      split at hm
      · rename_i i hsource
        cases hm
        refine h.refresh rfl ?_ (fun _ hev => hev) (.inl rfl)
        rintro j ⟨⟩
        exact ⟨by rw [hsource]; rfl, fun _ => by rw [hsource]; rfl⟩
      · cases hm
  | refuse =>
      simp only [State.move] at hm
      split at hm
      · cases hm
      · cases hm
        exact h.cut rfl rfl fun _ hev => hev
      · cases hm
  | disconnect =>
      simp only [State.move] at hm
      split at hm
      · cases hm
      · cases hm
        refine h.cut rfl ?_ nofun
        split_ifs <;> rfl
  | deliver =>
      simp only [State.move] at hm
      split at hm
      · rename_i i ev wire hsource hwire
        cases hm
        exact h.deliver hwire
      · cases hm
  | fire headers addr =>
      simp only [State.move] at hm
      split_ifs at hm
      cases hm
      exact h.refresh rfl (fun i hi => ⟨hi, id⟩) (fun _ hev => hev) (.inl rfl)
  | swap =>
      simp only [State.move] at hm
      split at hm
      · rename_i i resp hfetch
        split at hm
        · rename_i region hregion
          cases hm
          exact h.swap hfetch hregion
        · cases hm
      · cases hm
  | miss headers addr =>
      simp only [State.move] at hm
      split at hm
      · cases hm
      · split_ifs at hm
        · cases hm
          exact h.refresh rfl (fun i hi => ⟨hi, id⟩) (fun _ hev => hev) (.inr rfl)
        · cases hm
          exact h.miss

theorem Synced.of_run {w₀ : World} {region : String} {hxGet : String → Option PageQuery}
    {tr : LiveLog} {l : State} (h : State.Run hxGet (State.begin w₀ region) tr l) :
    Synced w₀ tr l := by
  induction h with
  | refl => exact .init w₀ region
  | snoc _ hm hadmits ih => exact ih.move hm hadmits

end Live
end Http
end Aardbin
