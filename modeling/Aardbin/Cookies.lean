import Aardbin.Auth.Guard
import Aardbin.PlainVendor

/-!
# Which cookie is read

`extract_lang_cookie` and `extract_valid_session` split the `Cookie` header and compare prefixes of
its parts, no names.  A part begins with the sought name and `=` only if this is its name, so they
find the first cookie of the name and nothing else.
-/

namespace Aardbin

open Effect Rust

/-! ## Cookies in a header -/

structure Cookie where
  name : String
  value : String
  name_chars : ∀ c ∈ name.toList, c ≠ '=' ∧ c ≠ ';' ∧ isWhitespace c = false
  value_chars : ';' ∉ value.toList
  value_trim : trim value = value

namespace Cookie

def pair (c : Cookie) : String :=
  c.name ++ "=" ++ c.value

/-- A cookie with some spaces before it, as it stands in the header. -/
def part (c : ℕ × Cookie) : String :=
  .ofList (List.replicate c.1 ' ') ++ c.2.pair

def header (cookies : List (ℕ × Cookie)) : String :=
  ";".intercalate (cookies.map part)

/-- The value of the first cookie with this very name. -/
def firstNamed (name : String) (cookies : List (ℕ × Cookie)) : Option String :=
  (cookies.find? fun c => c.2.name = name).map (·.2.value)

/-- The cookies with this name, in the order of the header. -/
def named (name : String) (cookies : List (ℕ × Cookie)) : List Cookie :=
  (cookies.map (·.2)).filter fun c => c.name = name

theorem toList_pair (c : Cookie) : c.pair.toList = c.name.toList ++ '=' :: c.value.toList := by
  simp [pair]

theorem equals_not_mem_name (c : Cookie) : '=' ∉ c.name.toList :=
  fun h => (c.name_chars '=' h).1 rfl

theorem semicolon_not_mem_part (c : ℕ × Cookie) : ';' ∉ (part c).toList := by
  rw [part, String.toList_append, String.toList_ofList, toList_pair]
  simp only [List.mem_append, List.mem_cons, List.mem_replicate, not_or]
  refine ⟨fun h => ?_, fun h => (c.2.name_chars ';' h).2.1 rfl, by decide, c.2.value_chars⟩
  exact absurd h.2 (by decide)

/-- A pair has no whitespace at its ends: not in its name, and not at the end of its value. -/
theorem trim_pair (c : Cookie) : trim c.pair = c.pair := by
  refine trim_eq_self (fun d hd => ?_) fun d hd => ?_
  · rw [toList_pair, List.head?_append] at hd
    cases hname : c.name.toList with
    | nil =>
        obtain rfl : '=' = d := by simpa [hname] using hd
        rfl
    | cons d' rest =>
        obtain rfl : d' = d := by simpa [hname] using hd
        exact (c.name_chars d' (by simp [hname])).2.2
  · rw [toList_pair, List.getLast?_append, List.getLast?_cons] at hd
    cases hvalue : c.value.toList.getLast? with
    | none =>
        obtain rfl : '=' = d := by simpa [hvalue] using hd
        rfl
    | some d' =>
        obtain rfl : d' = d := by simpa [hvalue] using hd
        refine @getLast?_trim c.value d' ?_
        rw [c.value_trim, hvalue]

theorem trim_part (c : ℕ × Cookie) : trim (part c) = c.2.pair := by
  rw [part, trim_append_of_whitespace, trim_pair]
  intro d hd
  rw [String.toList_ofList] at hd
  obtain rfl := List.eq_of_mem_replicate hd
  rfl

/-- The name ends at the first `=`, so no other name passes for the sought one. -/
theorem stripPrefix_pair {name : String} (hname : '=' ∉ name.toList) (c : Cookie) :
    stripPrefix c.pair (name ++ "=") = if c.name = name then some c.value else none := by
  split_ifs with h
  · refine stripPrefix_of_append ?_
    rw [toList_pair, h]
    simp
  · refine stripPrefix_eq_none fun rest hrest => h ?_
    have hsplit : c.name.toList ++ '=' :: c.value.toList = name.toList ++ '=' :: rest.toList := by
      rw [← toList_pair, hrest]
      simp
    have hfirst := congrArg (splitChars '=' []) hsplit
    rw [splitChars_append c.equals_not_mem_name, splitChars_append hname, List.cons.injEq] at hfirst
    simpa using hfirst.1

/-- The loop of both functions. -/
theorem findSome?_header (name : String) (hname : '=' ∉ name.toList)
    (cookies : List (ℕ × Cookie)) :
    ((split (header cookies) ';').findSome? fun pair => stripPrefix (trim pair) (name ++ "=")) =
      firstNamed name cookies := by
  by_cases hnil : cookies = []
  · -- The one part of an empty header is too short.
    subst hnil
    have hpart : stripPrefix (trim "") (name ++ "=") = none := by
      refine stripPrefix_eq_none fun rest hrest => ?_
      have hlen := congrArg List.length hrest
      simp at hlen
    have hsplit : split (header []) ';' = [""] := rfl
    rw [hsplit, List.findSome?_cons, hpart]
    rfl
  · have hsplit : split (header cookies) ';' = cookies.map part := by
      refine split_intercalate (by simpa using hnil) fun p hp => ?_
      rcases List.mem_map.1 hp with ⟨c, -, rfl⟩
      exact semicolon_not_mem_part c
    rw [hsplit, List.findSome?_map, firstNamed]
    clear hsplit hnil
    induction cookies with
    | nil => rfl
    | cons c rest ih =>
        rw [List.findSome?_cons, List.find?_cons, Function.comp_apply, trim_part,
          stripPrefix_pair hname, ih]
        by_cases h : c.2.name = name <;> simp [h]

/-- Cookies of other names have no part in it. -/
theorem firstNamed_congr {name : String} {cookies cookies' : List (ℕ × Cookie)}
    (h : named name cookies = named name cookies') :
    firstNamed name cookies = firstNamed name cookies' := by
  have hfirst : ∀ cookies, firstNamed name cookies = (named name cookies).head?.map (·.value) := by
    intro cookies
    rw [firstNamed, named, List.head?_filter, List.find?_map, Option.map_map]
    rfl
  rw [hfirst, hfirst, h]

theorem extractLangCookie_header (cookies : List (ℕ × Cookie)) :
    I18n.extractLangCookie (some (header cookies)) = firstNamed "aardbin_lang" cookies :=
  findSome?_header "aardbin_lang" (by decide) cookies

theorem extractValidSession_header (cookies : List (ℕ × Cookie)) (mgr : SessionManager) :
    extractValidSession (some (header cookies)) mgr =
      match firstNamed cookieName cookies with
      | none => pure false
      | some value => mgr.validate value := by
  have hvalue : sessionValue (header cookies) = firstNamed cookieName cookies :=
    findSome?_header cookieName (by decide) cookies
  rw [← hvalue]
  rfl

end Cookie

/-- Both functions find the first cookie with the very name they look for, and cookies of other
names never change what they find. -/
theorem cookie_lookup_exact (cookies : List (ℕ × Cookie)) (mgr : SessionManager) :
    I18n.extractLangCookie (some (Cookie.header cookies)) =
      Cookie.firstNamed "aardbin_lang" cookies ∧
    extractValidSession (some (Cookie.header cookies)) mgr =
      (match Cookie.firstNamed cookieName cookies with
        | none => pure false
        | some value => mgr.validate value) ∧
    (∀ cookies', Cookie.named "aardbin_lang" cookies = Cookie.named "aardbin_lang" cookies' →
      I18n.extractLangCookie (some (Cookie.header cookies)) =
        I18n.extractLangCookie (some (Cookie.header cookies'))) ∧
    ∀ cookies', Cookie.named cookieName cookies = Cookie.named cookieName cookies' →
      extractValidSession (some (Cookie.header cookies)) mgr =
        extractValidSession (some (Cookie.header cookies')) mgr := by
  refine ⟨Cookie.extractLangCookie_header cookies, Cookie.extractValidSession_header cookies mgr,
    fun cookies' h => ?_, fun cookies' h => ?_⟩
  · rw [Cookie.extractLangCookie_header, Cookie.extractLangCookie_header,
      Cookie.firstNamed_congr h]
  · rw [Cookie.extractValidSession_header, Cookie.extractValidSession_header,
      Cookie.firstNamed_congr h]

theorem Cookie.name_chars_of_all {name : String}
    (h : name.toList.all (fun c => c != '=' && c != ';' && !isWhitespace c) = true) :
    ∀ c ∈ name.toList, c ≠ '=' ∧ c ≠ ';' ∧ isWhitespace c = false := by
  intro c hc
  simpa [and_assoc] using List.all_eq_true.1 h c hc

/-- A name that ends with the sought one, a value that contains it, and the one that is sought. -/
def likeCookies : List (ℕ × Cookie) :=
  [(0, { name := "xaardbin_lang", value := "en", name_chars := Cookie.name_chars_of_all (by decide)
         value_chars := by decide, value_trim := by decide }),
    (1, { name := "a", value := "aardbin_lang=en", name_chars := Cookie.name_chars_of_all (by decide)
          value_chars := by decide, value_trim := by decide }),
    (0, { name := "aardbin_lang", value := "zh", name_chars := Cookie.name_chars_of_all (by decide)
          value_chars := by decide, value_trim := by decide })]

theorem cookie_lookup_exact_like :
    Cookie.header likeCookies = "xaardbin_lang=en; a=aardbin_lang=en;aardbin_lang=zh" ∧
    I18n.extractLangCookie (some (Cookie.header likeCookies)) = some "zh" ∧
    extractValidSession (some (Cookie.header likeCookies))
      (.new .plain "open sesame, please" 604800 true) = pure false := by
  rcases cookie_lookup_exact likeCookies (.new .plain "open sesame, please" 604800 true) with
    ⟨hlang, hsession, -⟩
  have hnone : Cookie.firstNamed cookieName likeCookies = none := by decide
  refine ⟨by decide, hlang.trans (by decide), hsession.trans ?_⟩
  rw [hnone]

end Aardbin
