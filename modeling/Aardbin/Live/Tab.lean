import Aardbin.Live.Announced
import Aardbin.Live.FreshList
import Aardbin.Notify.Delivery

/-!
# The list in a browser (`static/app.js`, `templates/*/partials/records.html`)

A page with the list holds an `EventSource` on `/events`.  It asks for its list region when the
stream opens, and again when no event has come for 300 ms after an event.  The requests are made by
htmx (`static/vendor/htmx.min.js`) for the region element: while one is in flight the next one
waits at the element, and when an answer replaces the element, whatever waits there is dropped.
Nobody uses the paging buttons here, whose own requests replace the same region.
-/

namespace Aardbin
namespace Http
namespace Live

open Effect

/-! ## The page -/

/-- `new EventSource("/events")`. -/
inductive EventSource
  /-- not connected; the browser will try again -/
  | connecting
  | requested (i : ℕ)
  /-- the head of the answer is on its way -/
  | answered (i : ℕ) (a : Answer)
  | opened (i : ℕ)
  /-- the answer was no event stream; the browser gives up -/
  | failed

/-- The request of the region element. -/
inductive Fetch
  | idle
  | requested (i : ℕ)
  /-- the answer is on its way -/
  | answered (i : ℕ) (a : Answer)

structure Tab where
  source : EventSource
  /-- events on their way -/
  wire : List SseEvent
  /-- is `timer` set? -/
  timer : Bool
  /-- the HTML of `#records-region` -/
  region : String
  fetch : Fetch
  /-- does a request wait at the region element? -/
  queued : Bool

/-- The request that the stream belongs to, from its beginning. -/
def EventSource.number? : EventSource → Option ℕ
  | .requested i | .answered i _ | .opened i => some i
  | _ => none

/-- The stream that the server writes to. -/
def EventSource.stream? : EventSource → Option ℕ
  | .answered i .stream | .opened i => some i
  | _ => none

def Fetch.number? : Fetch → Option ℕ
  | .idle => none
  | .requested i | .answered i _ => some i

/-- Request `i` is answered with `a`. -/
def EventSource.hear (i : ℕ) (a : Answer) : EventSource → EventSource
  | .requested j => if j = i then .answered i a else .requested j
  | source => source

def Fetch.hear (i : ℕ) (a : Answer) : Fetch → Fetch
  | .requested j => if j = i then .answered i a else .requested j
  | fetch => fetch

namespace Tab

def hear (t : Tab) (i : ℕ) (a : Answer) : Tab :=
  { t with source := t.source.hear i a, fetch := t.fetch.hear i a }

/-- The connection of the stream is lost. -/
def disconnect (t : Tab) : Tab :=
  { t with source := if t.source matches .failed then .failed else .connecting, wire := [] }

/-- The server writes what the receiver of stream `i` gets. -/
def receive (t : Tab) (i : ℕ) (r : Received Unit) : Tab :=
  if t.source.stream? = some i then { t with wire := t.wire ++ (events r).toList } else t

end Tab

/-! ## Events -/

inductive TabEvent
  | connect (i : ℕ) (req : Request)
  /-- `onopen`; the request that is sent, if it does not have to wait -/
  | opened (sent : Option (ℕ × Request))
  | refused
  | broken
  | delivered (ev : SseEvent)
  /-- the timer -/
  | fired (sent : Option (ℕ × Request))
  /-- the region is replaced, and with it perhaps a waiting request -/
  | swapped (dropped : Bool)
  /-- no region comes; the request that has waited is sent -/
  | missed (sent : Option (ℕ × Request))

inductive LiveEvent
  | server (e : Event Reply Env Boot Request Answer)
  | poll (i : ℕ) (r : Received Unit)
  /-- the receiver of a stream is dropped -/
  | leave (i : ℕ)
  | tab (e : TabEvent)

/-- The request that the page sends. -/
def TabEvent.sent? : TabEvent → Option (ℕ × Request)
  | .connect i req => some (i, req)
  | .opened sent | .fired sent | .missed sent => sent
  | _ => none

namespace LiveEvent

def server? : LiveEvent → Option (Event Reply Env Boot Request Answer)
  | .server e => some e
  | .tab e => e.sent?.map fun x => .start x.1 x.2
  | _ => none

def writes (e : LiveEvent) : Bool :=
  e.server?.any Http.writes

/-- Has the page asked for the region, or wanted to, and will not get it? -/
def loses : LiveEvent → Bool
  | .tab (.swapped dropped) => dropped
  | .tab (.missed none) => true
  | _ => false

end LiveEvent

abbrev LiveLog : Type := List LiveEvent

def processLog (tr : LiveLog) : Log :=
  tr.filterMap LiveEvent.server?

def lostAfter (lost : Bool) (e : LiveEvent) : Bool :=
  e.loses || (lost && !e.writes)

/-- Has the page lost a refresh since the last write? -/
def lost (tr : LiveLog) : Bool :=
  tr.foldl lostAfter false

/-! ## The process and the page -/

structure State where
  pool : Pool Reply World Answer
  channel : Broadcast Unit
  tab : Tab

inductive LiveMove
  | server (m : Move Env Boot Request)
  | poll (i : ℕ)
  | leave (i : ℕ)
  | connect (headers : Headers) (addr : Option IpAddr)
  | accept (headers : Headers) (addr : Option IpAddr)
  | refuse
  | disconnect
  | deliver
  | fire (headers : Headers) (addr : Option IpAddr)
  | swap
  | miss (headers : Headers) (addr : Option IpAddr)

/-- What a step of the process does to the channel of its subscribers. -/
def channelAfter (channel : Broadcast Unit) : Event Reply Env Boot Request Answer → Broadcast Unit
  | .ask i _ .subscribe _ => channel.subscribe i
  | .ask _ _ (.store .send) _ => channel.send ()
  | .reboot _ => Broadcast.open? eventsCapacity
  | _ => channel

/-- What the page notices of a step of the process. -/
def Tab.notice (t : Tab) : Event Reply Env Boot Request Answer → Tab
  | .finish i a => t.hear i a
  | .reboot _ => t.disconnect
  | _ => t

namespace State

/-- A request of the page comes in. -/
def send (l : State) (req : Request) : State :=
  { l with pool :=
    { l.pool.setThread l.pool.started (some (app.handler l.pool.shared req)) with
      started := l.pool.started + 1 } }

section Moves

-- the query of the `hx-get` attribute of a region, as `GET /records` extracts it
variable (hxGet : String → Option PageQuery)

/-- The event `aardbin:refresh`: htmx sends the request of the region, or lets it wait. -/
def refresh (l : State) (headers : Headers) (addr : Option IpAddr) :
    Option (ℕ × Request) × State :=
  match l.tab.fetch with
  | .idle =>
      let req := { endpoint := .recordsPartial (hxGet l.tab.region), headers, addr }
      (some (l.pool.started, req),
        { l.send req with tab := { l.tab with fetch := .requested l.pool.started } })
  | _ => (none, { l with tab := { l.tab with queued := true } })

def move (l : State) : LiveMove → Option (LiveEvent × State)
  | .server m =>
      match app.move l.pool m with
      | none => none
      | some (e, pool) =>
          some (.server e, { pool, channel := channelAfter l.channel e, tab := l.tab.notice e })
  | .poll i =>
      -- the stream is the body of the answer, so it is not read before the request has ended
      match l.pool.threads i, l.channel.recv i with
      | none, some (r, channel) => some (.poll i r, { l with channel, tab := l.tab.receive i r })
      | _, _ => none
  | .leave i =>
      if l.tab.source.number? = some i then none
      else some (.leave i, { l with channel := l.channel.unsubscribe i })
  | .connect headers addr =>
      match l.tab.source with
      | .connecting =>
          let req := { endpoint := .events, headers, addr }
          some (.tab (.connect l.pool.started req),
            { l.send req with tab := { l.tab with source := .requested l.pool.started } })
      | _ => none
  | .accept headers addr =>
      match l.tab.source with
      | .answered i .stream =>
          let (sent, l') :=
            refresh hxGet { l with tab := { l.tab with source := .opened i } } headers addr
          some (.tab (.opened sent), l')
      | _ => none
  | .refuse =>
      match l.tab.source with
      | .answered _ .stream => none
      | .answered _ _ => some (.tab .refused, { l with tab := { l.tab with source := .failed } })
      | _ => none
  | .disconnect =>
      match l.tab.source.number? with
      | none => none
      | some _ => some (.tab .broken, { l with tab := l.tab.disconnect })
  | .deliver =>
      match l.tab.source, l.tab.wire with
      | .opened _, ev :: wire =>
          let timer := l.tab.timer || ev.event = "data_changed"
          some (.tab (.delivered ev), { l with tab := { l.tab with wire, timer } })
      | _, _ => none
  | .fire headers addr =>
      if l.tab.timer then
        let (sent, l') := refresh hxGet { l with tab := { l.tab with timer := false } } headers addr
        some (.tab (.fired sent), l')
      else none
  | .swap =>
      match l.tab.fetch with
      | .answered _ (.response resp) =>
          match resp.region? with
          | some region =>
              -- the element is gone, and the request that waits there is dropped
              some (.tab (.swapped l.tab.queued),
                { l with tab := { l.tab with region, fetch := .idle, queued := false } })
          | none => none
      | _ => none
  | .miss headers addr =>
      -- an answer without a region (with `HX-Request`, a session that has run out is a 401), or
      -- none at all: the element stays
      match l.tab.fetch with
      | .idle => none
      | _ =>
          let l₁ := { l with tab := { l.tab with fetch := .idle, queued := false } }
          if l.tab.queued then
            let (sent, l') := refresh hxGet l₁ headers addr
            some (.tab (.missed sent), l')
          else some (.tab (.missed none), l₁)

end Moves

/-- The process is restricted as in `Orderly`; nothing restricts the page and its connections. -/
def Admits (tr : LiveLog) (l : State) (e : LiveEvent) : Prop :=
  match e.server? with
  | some ev => Orderly (processLog tr) l.pool ev
  | none => True

instance (tr : LiveLog) (l : State) (e : LiveEvent) : Decidable (Admits tr l e) := by
  unfold Admits
  cases e.server? <;> infer_instance

/-- The process has started, and a page shows something and is not connected. -/
def begin (w : World) (region : String) : State where
  pool := Pool.idle w
  channel := Broadcast.open? eventsCapacity
  tab :=
    { source := .connecting, wire := [], timer := false, region, fetch := .idle
      queued := false }

/-- Any interleaving of the process, its subscribers and the page. -/
inductive Run (hxGet : String → Option PageQuery) (l₀ : State) : LiveLog → State → Prop
  | refl : Run hxGet l₀ [] l₀
  | snoc {tr : LiveLog} {l l' : State} {m : LiveMove} {e : LiveEvent} :
      Run hxGet l₀ tr l → l.move hxGet m = some (e, l') → Admits tr l e →
      Run hxGet l₀ (tr ++ [e]) l'

/-- Extends a history by the moves of a schedule, if all of them are possible and admitted. -/
def play (hxGet : String → Option PageQuery) :
    List LiveMove → LiveLog → State → Option (LiveLog × State)
  | [], tr, l => some (tr, l)
  | m :: ms, tr, l =>
      match l.move hxGet m with
      | none => none
      | some (e, l') => if Admits tr l e then play hxGet ms (tr ++ [e]) l' else none

theorem Run.of_play {hxGet : String → Option PageQuery} {ms : List LiveMove} {l₀ l l' : State}
    {tr tr' : LiveLog} (hrun : Run hxGet l₀ tr l) (h : play hxGet ms tr l = some (tr', l')) :
    Run hxGet l₀ tr' l' := by
  induction ms generalizing tr l with
  | nil =>
      cases h
      exact hrun
  | cons m ms ih =>
      simp only [play] at h
      split at h
      · cases h
      · rename_i e l₁ hm
        split_ifs at h with hadmits
        exact ih (.snoc hrun hm hadmits) h

/-- A schedule that plays to its end shows that a run with the property `P` exists. -/
theorem exists_run {hxGet : String → Option PageQuery} (ms : List LiveMove) {l₀ : State}
    {P : LiveLog → State → Bool}
    (h : ((play hxGet ms [] l₀).any fun x => P x.1 x.2) = true) :
    ∃ tr l, Run hxGet l₀ tr l ∧ P tr l = true := by
  cases hplay : play hxGet ms [] l₀ with
  | none => simp [hplay] at h
  | some x => exact ⟨x.1, x.2, .of_play .refl hplay, by simpa [hplay] using h⟩

end State

end Live
end Http
end Aardbin
