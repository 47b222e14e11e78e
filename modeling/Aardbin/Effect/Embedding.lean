import Aardbin.Effect.Pool

/-!
# Programs of a smaller signature inside a larger one

An `Embedding` says where the operations of one signature stand in another one.  A program of the
smaller signature runs there unchanged (`Program.embed`), and is verified against the part of a
protocol that concerns its own operations (`wp_embed`).
-/

namespace Effect

variable {Op Op' : Type} {Reply : Op → Type} {Reply' : Op' → Type} {α β G : Type}

structure Embedding (Reply : Op → Type) (Reply' : Op' → Type) where
  op : Op → Op'
  reply : (o : Op) → Reply' (op o) → Reply o

namespace Program

def embed (e : Embedding Reply Reply') : Program Reply α → Program Reply' α
  | .done a => .done a
  | .ask o k => .ask (e.op o) fun r => (k (e.reply o r)).embed e

variable (e : Embedding Reply Reply')

@[simp] theorem embed_done (a : α) : (Program.done a : Program Reply α).embed e = .done a := rfl

@[simp] theorem embed_pure (a : α) : (pure a : Program Reply α).embed e = pure a := rfl

theorem embed_ask (o : Op) (k : Reply o → Program Reply α) :
    (Program.ask o k).embed e = .ask (e.op o) fun r => (k (e.reply o r)).embed e := rfl

@[simp] theorem embed_bind (p : Program Reply α) (f : α → Program Reply β) :
    (p >>= f).embed e = p.embed e >>= fun a => (f a).embed e := by
  change (p.bind f).embed e = (p.embed e).bind fun a => (f a).embed e
  induction p with
  | done a => rfl
  | ask o k ih =>
      simp only [Program.bind, embed_ask]
      exact congrArg _ (funext fun r => ih (e.reply o r))

/-- The first step of a program that goes on after an embedded one. -/
theorem embed_ask_bind (o : Op) (k : Reply o → Program Reply α) (f : α → Program Reply' β) :
    (Program.ask o k).embed e >>= f =
      .ask (e.op o) fun r => (k (e.reply o r)).embed e >>= f := rfl

end Program

section Rules

variable {e : Embedding Reply Reply'}

/-- What a protocol says about the operations of the smaller signature. -/
def Protocol.pull (e : Embedding Reply Reply') (π : Protocol Reply' G) : Protocol Reply G where
  pre := fun g o => π.pre g (e.op o)
  next := fun g o r g' => ∃ r', e.reply o r' = r ∧ π.next g (e.op o) r' g'

theorem wp_embed {π : Protocol Reply' G} {p : Program Reply α} {Q : α → G → Prop} {g : G} :
    wp π (p.embed e) Q g ↔ wp (π.pull e) p Q g := by
  induction p generalizing g with
  | done a => exact Iff.rfl
  | ask o k ih =>
      rw [Program.embed_ask, wp_ask, wp_ask]
      refine and_congr Iff.rfl ?_
      constructor
      · rintro h _ g' ⟨r, rfl, hr⟩
        exact ih (e.reply o r) |>.1 (h r g' hr)
      · intro h r g' hr
        exact ih (e.reply o r) |>.2 (h _ g' ⟨r, rfl, hr⟩)

theorem Uses.embed {P : Op → Prop} {P' : Op' → Prop} {R : α → Prop} {p : Program Reply α}
    (h : Uses P R p) (hP : ∀ o, P o → P' (e.op o)) : Uses P' R (p.embed e) := by
  unfold Uses at h ⊢
  rw [wp_embed]
  exact wp_restrict (π := only P) (fun _ o ho => hP o ho) (fun _ _ _ _ _ => trivial) h

/-- Without any knowledge of a program: its operations are those of the smaller signature. -/
theorem uses_embed (p : Program Reply α) : Uses (fun o' => ∃ o, o' = e.op o) (fun _ => True)
    (p.embed e) := by
  induction p with
  | done a => trivial
  | ask o k ih => exact ⟨⟨o, rfl⟩, fun r _ _ => ih (e.reply o r)⟩

end Rules

end Effect
