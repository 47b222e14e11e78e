import Aardbin.Effect.Transcript
import Aardbin.Http.Router

/-!
# The answer to `GET /events`

Whoever is answered with an event stream has subscribed to the channel before.
-/

namespace Aardbin
namespace Http

open Effect

/-- The program does not answer with a stream. -/
abbrev NoStream (p : Program Reply Answer) : Prop :=
  Uses (fun _ => True) (fun a => a ≠ .stream) p

theorem noStream_bind {α : Type} (p : Program Reply α) {f : α → Program Reply Answer}
    (h : ∀ a, NoStream (f a)) : NoStream (p >>= f) :=
  (Uses.any p).bind fun a _ => h a

theorem noStream_response (resp : Response) : NoStream (return .response resp) :=
  Uses.pure nofun

theorem noStream_extracted {α : Type} (x : Option α) {handler : α → Program Reply Answer}
    (h : ∀ a, NoStream (handler a)) : NoStream (extracted x handler) := by
  cases x with
  | none => exact Uses.pure nofun
  | some a => exact h a

theorem noStream_protect {s : AppState} {headers : HeaderMap} {handler : Program Reply Answer}
    (h : NoStream handler) : NoStream (protect s headers handler) := by
  refine noStream_bind _ fun r => ?_
  cases r with
  | error resp => exact noStream_response resp
  | ok _ => exact h

theorem noStream_withApiAuth {s : AppState} {addr : Option IpAddr} {headers : HeaderMap}
    {handler : Program Reply Answer} (h : NoStream handler) :
    NoStream (withApiAuth s addr headers handler) := by
  refine noStream_bind _ fun r => ?_
  cases r with
  | error resp => exact noStream_response resp
  | ok _ => exact h

theorem noStream_responding (p : Program Aardbin.Reply Response) : NoStream (responding p) :=
  noStream_bind _ noStream_response

theorem noStream_downloaded (p : Program Reply (Except Response Download)) :
    NoStream (p >>= fun d => return downloaded d) := by
  refine noStream_bind _ fun d => ?_
  cases d <;> exact Uses.pure nofun

theorem noStream_serve (s : AppState) (pages : Pages) (addr : Option IpAddr) (headers : HeaderMap)
    {endpoint : Endpoint} (h : endpoint ≠ .events) :
    NoStream (serve s pages addr headers endpoint) := by
  cases endpoint with
  | events => exact absurd rfl h
  | healthz | postLogout => exact noStream_response _
  | asset _ | unrouted _ => exact Uses.pure nofun
  | getLogin error => exact noStream_extracted _ fun _ => noStream_response _
  | postLang lang => exact noStream_extracted _ fun _ => noStream_response _
  | postLogin form =>
      simp only [serve]
      split
      · exact noStream_bind _ noStream_response
      · exact Uses.pure nofun
  | apiListRecords q =>
      exact noStream_withApiAuth (noStream_extracted _ fun _ => noStream_responding _)
  | apiCreateRecord multipart =>
      exact noStream_withApiAuth (noStream_extracted _ fun _ => noStream_responding _)
  | apiGetRecord id =>
      refine noStream_withApiAuth (noStream_bind _ fun r => ?_)
      cases r <;> exact Uses.pure nofun
  | apiDeleteRecord id => exact noStream_withApiAuth (noStream_responding _)
  | apiDownloadAttachment id inline =>
      exact noStream_withApiAuth (noStream_extracted _ fun _ => noStream_downloaded _)
  | index => exact noStream_protect (noStream_responding _)
  | recordsPartial q =>
      exact noStream_protect (noStream_extracted _ fun _ => noStream_responding _)
  | createRecord multipart =>
      exact noStream_protect (noStream_extracted _ fun _ => noStream_responding _)
  | newForm => exact noStream_protect (noStream_response _)
  | editForm id =>
      refine noStream_protect (noStream_bind _ fun r => ?_)
      cases r <;> exact noStream_response _
  | updateRecord id multipart =>
      exact noStream_protect (noStream_extracted _ fun _ => noStream_responding _)
  | deleteRecord id => exact noStream_protect (noStream_responding _)
  | copyRecord id => exact noStream_protect (noStream_responding _)
  | deleteAttachment recordId attachmentId => exact noStream_protect (noStream_responding _)
  | downloadAttachment id inline =>
      exact noStream_protect (noStream_extracted _ fun _ => noStream_downloaded _)

/-- Whoever is answered with a stream has subscribed before. -/
theorem wp_logging_route (s : AppState) (pages : Pages) (req : Request) :
    wp (logging Env fun _ _ => True) (route s pages req)
      (fun a log => a = .stream → ∃ env r, ⟨env, .subscribe, r⟩ ∈ log) [] := by
  unfold route
  split
  · intro h
    cases h
  · by_cases hevents : req.endpoint = .events
    · rw [hevents]
      simp only [serve, protect, wp_bind]
      refine wp_keeps (fun _ => True) (fun _ _ _ _ => trivial) (fun _ _ _ _ _ _ _ => trivial)
        (Uses.any _) trivial fun r log _ _ => ?_
      cases r with
      | error resp =>
          intro h
          cases h
      | ok _ =>
          simp only [wp_bind]
          refine wp_logging_perform fun env r _ => ?_
          exact fun _ => ⟨env, r, by simp⟩
    · refine wp_keeps (fun _ => True) (fun _ _ _ _ => trivial) (fun _ _ _ _ _ _ _ => trivial)
        (noStream_serve s pages req.addr _ hevents) trivial fun a log ha _ => ?_
      exact fun h => absurd h ha

theorem subscribed_of_stream {guard : Guard Reply World Env Boot Request Answer} {w₀ : World}
    {tr : Log} {c : Pool Reply World Answer} (h : app.Run guard w₀ tr c) {i : ℕ}
    (hfin : .finish i .stream ∈ tr) : ∃ env r, .ask i env .subscribe r ∈ tr := by
  rcases h.transcript (fun _ _ _ _ _ _ => trivial)
    (fun w req => wp_logging_route w.server.app w.pages req) hfin with ⟨req, log, hpost, hlog⟩
  rcases hpost rfl with ⟨env, r, hmem⟩
  refine ⟨env, r, ?_⟩
  rw [← mem_byThread rfl, hlog]
  simp only [List.cons_append, List.mem_cons, List.mem_append, List.mem_map]
  exact .inr (.inl ⟨_, hmem, rfl⟩)

end Http
end Aardbin
