import Aardbin.Live.Synced
import Aardbin.PlainVendor

/-!
# The list in a browser converges

After any writes, in any interleaving, with lost connections and lagging streams, but without a
restart of the process and without the paging buttons: once nothing is under way any more, the page
shows the list as it is, unless it has lost a refresh.
-/

namespace Aardbin
namespace Http
namespace Live

open Effect

/-! ## The result -/

/-- Nothing is under way, neither in the process nor at the page. -/
structure State.Settled (l : State) : Prop where
  quiet : l.pool.Quiet
  opened : ∃ i, l.tab.source = .opened i ∧ l.channel.recv i = none
  wire : l.tab.wire = []
  timer : l.tab.timer = false
  fetch : l.tab.fetch = .idle

/-- A new process whose MACs can be computed and whose list region tells whether there are
records. -/
def World.counted : World where
  server :=
    { app :=
        { AppState.plain with
          vendor :=
            { Vendor.plain with
              hmacSha256 := fun _ _ => [1]
              renderLang := fun _ page =>
                match page with
                | .records view => some (if view.total = 0 then "no records" else "records")
                | _ => none } }
      store := .empty }
  auth := { limiter := .new, clock := 0 }
  pages := { form := fun _ _ => none }

/-- The headers of a page of a client that has logged in. -/
def pageHeaders : Headers where
  get := fun name => if name = "cookie" then some (some "aardbin_session=v1.5.01") else none

/-- Request `i` takes `n` steps in the environment `e`. -/
def serverSteps (e : Env) (i n : ℕ) : List LiveMove :=
  List.replicate n (.server (.step i e))

/-- A client with the access key creates a record by request `i`. -/
def creating (e : Env) (i : ℕ) : List LiveMove :=
  .server (.start { endpoint := .apiCreateRecord (some (form "a" "b" []))
                    headers := keyHeaders, addr := some (.v4 1) }) :: serverSteps e i 8

def firstPage (_ : String) : Option PageQuery :=
  some { page := some 1 }

/-- `Settled` for stream 0, as far as it can be computed. -/
def settledBelow (l : State) : Bool :=
  l.pool.quietBelow && (l.tab.source matches .opened 0) && (l.channel.recv 0).isNone &&
    l.tab.wire.isEmpty && !l.tab.timer && (l.tab.fetch matches .idle)

theorem settled_of_below {hxGet : String → Option PageQuery} {w₀ : World} {region : String}
    {tr : LiveLog} {l : State} (h : State.Run hxGet (State.begin w₀ region) tr l)
    (hbelow : settledBelow l = true) : l.Settled := by
  simp only [settledBelow, Bool.and_eq_true, Option.isNone_iff_eq_none, List.isEmpty_iff,
    Bool.not_eq_true'] at hbelow
  rcases hbelow with ⟨⟨⟨⟨⟨hquiet, hsource⟩, hread⟩, hwire⟩, htimer⟩, hfetch⟩
  refine ⟨(Synced.of_run h).run.quiet hquiet, ⟨0, ?_, hread⟩, hwire, htimer, ?_⟩
  · split at hsource
    · assumption
    · cases hsource
  · split at hfetch
    · assumption
    · cases hfetch

/-- The condition is needed: the record is created while the answer that the page waits for is
being put together.  The refresh that the page then wants waits at the old region, and goes with
it. -/
theorem refresh_lost_run : ∃ tr l,
    State.Run firstPage (State.begin World.counted "") tr l ∧ l.Settled ∧ ¬ Current tr l := by
  have hplay : ∃ tr l, State.Run firstPage (State.begin World.counted "") tr l ∧
      (settledBelow l && (l.tab.region = "no records" &&
        l.pool.shared.server.store.db.recordIds = ["r1"])) = true := by
    refine State.exists_run
      (.connect pageHeaders none :: serverSteps {} 0 3 ++ .accept pageHeaders none ::
        serverSteps {} 1 2 ++ creating { store := { uuid := "r1" } } 2 ++
        .poll 0 :: .deliver :: .fire pageHeaders none :: serverSteps {} 1 2 ++ [.swap]) ?_
    decide
  rcases hplay with ⟨tr, l, hrun, hfacts⟩
  simp only [Bool.and_eq_true, decide_eq_true_eq] at hfacts
  rcases hfacts with ⟨hbelow, hregion, hids⟩
  refine ⟨tr, l, hrun, settled_of_below hrun hbelow, ?_⟩
  rintro ⟨i, req, q, -, -, view, ⟨totalPages, attachments, -, -, rfl⟩, hrender⟩
  have hcount : l.pool.shared.server.store.db.records.length = 1 := by
    simpa [Db.recordIds] using congrArg List.length hids
  rw [(Synced.of_run hrun).sameApp, hregion] at hrender
  simp [World.counted, listView, hcount] at hrender

end Live
end Http
end Aardbin
