import Aardbin.Rust.Text

/-!
# Languages (`i18n.rs`)
-/

namespace Aardbin

open Rust

inductive Lang
  | en
  | zh
  deriving DecidableEq, Repr

namespace I18n

/-- The rows of the translation tables that the modelled functions read. -/
def table : Lang → String → Option String
  | .en, "records.untitled" => some "Untitled"
  | .zh, "records.untitled" => some "无标题"
  | .en, "login.error" => some "Invalid access key"
  | .zh, "login.error" => some "访问密钥无效"
  | .en, "rate.too_many" =>
      some "Too many attempts. Try again in \x7bminutes\x7d minute\x7bplural\x7d."
  | .zh, "rate.too_many" => some "尝试次数过多，请在 \x7bminutes\x7d 分钟后重试。"
  | _, _ => none

def t (lang : Lang) (key : String) : String :=
  match table lang key with
  | some v => v
  | none => ((table .en key).filter fun _ => lang ≠ .en).getD key

def langOfCookie (c : String) : Option Lang :=
  if trim c ∈ ["zh", "zh-CN", "zh-cn"] then some .zh
  else if trim c ∈ ["en", "en-US", "en-us"] then some .en
  else none

def langOfTag (part : String) : Option Lang :=
  let tag := toAsciiLowercase (trim (((split part ';').head?).getD ""))
  if startsWith tag "zh" then some .zh
  else if startsWith tag "en" then some .en
  else none

def resolve (cookieVal acceptLang : Option String) : Lang :=
  match cookieVal.bind langOfCookie with
  | some lang => lang
  | none =>
      match acceptLang.bind fun al => (split al ',').findSome? langOfTag with
      | some lang => lang
      | none => .en

def extractLangCookie (cookieHeader : Option String) : Option String :=
  cookieHeader.bind fun header =>
    (split header ';').findSome? fun pair => stripPrefix (trim pair) "aardbin_lang="

end I18n

end Aardbin
