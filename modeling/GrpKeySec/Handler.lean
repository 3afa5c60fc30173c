import Mathlib.Tactic.Common
set_option autoImplicit false

/-!
Request handlers as data. A handler works on the state of its own service and
issues outgoing requests; what answers them is not part of the handler, so one
definition serves a sequential run against any environment and a concurrent run
in which other handlers act between a request and its reply.
-/

namespace GrpKeySec

/-- State `σ`, outgoing requests `ρ`, replies `β`, exceptions `ε`, result `α`.
A request either gets a reply or raises, and the handler sees which. -/
inductive Handler (σ ρ β ε α : Type) where
  | ret : α → Handler σ ρ β ε α
  | raise : ε → Handler σ ρ β ε α
  | get : (σ → Handler σ ρ β ε α) → Handler σ ρ β ε α
  | modify : (σ → σ) → Handler σ ρ β ε α → Handler σ ρ β ε α
  | call : ρ → (Except ε β → Handler σ ρ β ε α) → Handler σ ρ β ε α

namespace Handler

variable {σ ρ β ε α γ : Type}

def bind : Handler σ ρ β ε α → (α → Handler σ ρ β ε γ) → Handler σ ρ β ε γ
  | ret a, f => f a
  | raise e, _ => raise e
  | get k, f => get (fun s => (k s).bind f)
  | modify u h, f => modify u (h.bind f)
  | call r k, f => call r (fun o => (k o).bind f)

instance : Monad (Handler σ ρ β ε) where
  pure := ret
  bind := bind

@[simp] theorem pure_eq (a : α) : (pure a : Handler σ ρ β ε α) = ret a := rfl

@[simp] theorem ret_bind (a : α) (f : α → Handler σ ρ β ε γ) : ret a >>= f = f a := rfl

@[simp] theorem raise_bind (e : ε) (f : α → Handler σ ρ β ε γ) : raise e >>= f = raise e := rfl

@[simp] theorem get_bind (k : σ → Handler σ ρ β ε α) (f : α → Handler σ ρ β ε γ) :
    get k >>= f = get (fun s => k s >>= f) := rfl

@[simp] theorem modify_bind (u : σ → σ) (h : Handler σ ρ β ε α) (f : α → Handler σ ρ β ε γ) :
    modify u h >>= f = modify u (h >>= f) := rfl

@[simp] theorem call_bind (r : ρ) (k : Except ε β → Handler σ ρ β ε α)
    (f : α → Handler σ ρ β ε γ) : call r k >>= f = call r (fun o => k o >>= f) := rfl

@[simp] theorem bind_assoc {δ : Type} (h : Handler σ ρ β ε α) (f : α → Handler σ ρ β ε γ)
    (g : γ → Handler σ ρ β ε δ) : h >>= f >>= g = h >>= fun a => f a >>= g := by
  induction h with
  | ret a => rfl
  | raise e => rfl
  | get k ih => simp only [get_bind,ih]
  | modify u h ih => simp only [modify_bind,ih]
  | call r k ih => simp only [call_bind,ih]

def ofExcept : Except ε α → Handler σ ρ β ε α
  | .ok a => ret a
  | .error e => raise e

@[simp] theorem ofExcept_ok (a : α) :
    (ofExcept (.ok a) : Handler σ ρ β ε α) = ret a := rfl

@[simp] theorem ofExcept_error (e : ε) :
    (ofExcept (.error e) : Handler σ ρ β ε α) = raise e := rfl

def read (f : σ → α) : Handler σ ρ β ε α := get (fun s => ret (f s))

def assign (u : σ → σ) : Handler σ ρ β ε Unit := modify u (ret ())

def request (r : ρ) : Handler σ ρ β ε β := call r ofExcept

def tryCatch : Handler σ ρ β ε α → (ε → Handler σ ρ β ε α) → Handler σ ρ β ε α
  | ret a, _ => ret a
  | raise e, c => c e
  | get k, c => get (fun s => (k s).tryCatch c)
  | modify u h, c => modify u (h.tryCatch c)
  | call r k, c => call r (fun o => (k o).tryCatch c)

/-- Let a handler of one service act on that service's part of a larger state. -/
def zoom {ω : Type} (view : ω → σ) (embed : (σ → σ) → ω → ω) :
    Handler σ ρ β ε α → Handler ω ρ β ε α
  | ret a => ret a
  | raise e => raise e
  | get k => get (fun s => (k (view s)).zoom view embed)
  | modify u h => modify (embed u) (h.zoom view embed)
  | call r k => call r (fun o => (k o).zoom view embed)

section Zoom

variable {ω : Type} (view : ω → σ) (embed : (σ → σ) → ω → ω)

@[simp] theorem zoom_bind (h : Handler σ ρ β ε α) (f : α → Handler σ ρ β ε γ) :
    (h >>= f).zoom view embed = h.zoom view embed >>= fun a => (f a).zoom view embed := by
  induction h with
  | ret a => rfl
  | raise e => rfl
  | get k ih => simp only [get_bind,zoom,ih]
  | modify u h ih => simp only [modify_bind,zoom,ih]
  | call r k ih => simp only [call_bind,zoom,ih]

@[simp] theorem zoom_tryCatch (h : Handler σ ρ β ε α) (c : ε → Handler σ ρ β ε α) :
    (h.tryCatch c).zoom view embed =
      (h.zoom view embed).tryCatch (fun e => (c e).zoom view embed) := by
  induction h with
  | ret a => rfl
  | raise e => rfl
  | get k ih => simp only [tryCatch,zoom,ih]
  | modify u h ih => simp only [tryCatch,zoom,ih]
  | call r k ih => simp only [tryCatch,zoom,ih]

@[simp] theorem zoom_ret (a : α) : (ret a : Handler σ ρ β ε α).zoom view embed = ret a := rfl

@[simp] theorem zoom_raise (e : ε) :
    (raise e : Handler σ ρ β ε α).zoom view embed = raise e := rfl

@[simp] theorem zoom_ofExcept (o : Except ε α) :
    (ofExcept o : Handler σ ρ β ε α).zoom view embed = ofExcept o := by cases o <;> rfl

@[simp] theorem zoom_read (f : σ → α) :
    (read f : Handler σ ρ β ε α).zoom view embed = read (fun s => f (view s)) := rfl

@[simp] theorem zoom_assign (u : σ → σ) :
    (assign u : Handler σ ρ β ε Unit).zoom view embed = assign (embed u) := rfl

@[simp] theorem zoom_request (r : ρ) :
    (request r : Handler σ ρ β ε β).zoom view embed = request r := by
  simp only [request,zoom,zoom_ofExcept]

end Zoom

/-- Every update the handler makes is in `M` and every request it issues in `P`. -/
def Footprint (M : σ → σ → Prop) (P : ρ → Prop) : Handler σ ρ β ε α → Prop
  | ret _ => True
  | raise _ => True
  | get k => ∀ s, (k s).Footprint M P
  | modify u h => (∀ s, M s (u s)) ∧ h.Footprint M P
  | call r k => P r ∧ ∀ o, (k o).Footprint M P

section Footprint

variable {M : σ → σ → Prop} {P : ρ → Prop}

theorem footprint_bind {h : Handler σ ρ β ε α} {f : α → Handler σ ρ β ε γ}
    (hh : h.Footprint M P) (hf : ∀ a, (f a).Footprint M P) : (h >>= f).Footprint M P := by
  induction h with
  | ret a => exact hf a
  | raise e => trivial
  | get k ih => exact fun s => ih s (hh s)
  | modify u h ih => exact ⟨hh.1,ih hh.2⟩
  | call r k ih => exact ⟨hh.1,fun o => ih o (hh.2 o)⟩

theorem footprint_tryCatch {h : Handler σ ρ β ε α} {c : ε → Handler σ ρ β ε α}
    (hh : h.Footprint M P) (hc : ∀ e, (c e).Footprint M P) : (h.tryCatch c).Footprint M P := by
  induction h with
  | ret a => trivial
  | raise e => exact hc e
  | get k ih => exact fun s => ih s (hh s)
  | modify u h ih => exact ⟨hh.1,ih hh.2⟩
  | call r k ih => exact ⟨hh.1,fun o => ih o (hh.2 o)⟩

theorem footprint_zoom {ω : Type} {view : ω → σ} {embed : (σ → σ) → ω → ω}
    {N : ω → ω → Prop} {h : Handler σ ρ β ε α} (hh : h.Footprint M P)
    (hN : ∀ u, (∀ s, M s (u s)) → ∀ s, N s (embed u s)) : (h.zoom view embed).Footprint N P := by
  induction h with
  | ret a => trivial
  | raise e => trivial
  | get k ih => exact fun s => ih (view s) (hh (view s))
  | modify u h ih => exact ⟨hN u hh.1,ih hh.2⟩
  | call r k ih => exact ⟨hh.1,fun o => ih o (hh.2 o)⟩

theorem footprint_ofExcept (o : Except ε α) :
    (ofExcept o : Handler σ ρ β ε α).Footprint M P := by cases o <;> trivial

theorem footprint_read (f : σ → α) : (read f : Handler σ ρ β ε α).Footprint M P := fun _ => trivial

theorem footprint_assign (u : σ → σ) (hu : ∀ s, M s (u s)) :
    (assign u : Handler σ ρ β ε Unit).Footprint M P := ⟨hu,trivial⟩

theorem footprint_request {r : ρ} (hr : P r) :
    (request r : Handler σ ρ β ε β).Footprint M P := ⟨hr,footprint_ofExcept⟩

end Footprint

def run {τ : Type} (env : τ → ρ → τ × Except ε β) :
    Handler σ ρ β ε α → σ → τ → Except ε α × σ × τ
  | ret a, s, t => (.ok a,s,t)
  | raise e, s, t => (.error e,s,t)
  | get k, s, t => (k s).run env s t
  | modify u h, s, t => h.run env (u s) t
  | call r k, s, t => (k (env t r).2).run env s (env t r).1

theorem run_bind {τ : Type} (env : τ → ρ → τ × Except ε β) (h : Handler σ ρ β ε α)
    (f : α → Handler σ ρ β ε γ) (s : σ) (t : τ) :
    (h >>= f).run env s t =
      match h.run env s t with
      | (.ok a,s',t') => (f a).run env s' t'
      | (.error e,s',t') => (.error e,s',t') := by
  induction h generalizing s t with
  | ret a => rfl
  | raise e => rfl
  | get k ih => simpa only [get_bind,run] using ih s s t
  | modify u h ih => simpa only [modify_bind,run] using ih (u s) t
  | call r k ih => simpa only [call_bind,run] using ih (env t r).2 s (env t r).1

section Run

variable {τ : Type} (env : τ → ρ → τ × Except ε β) (s : σ) (t : τ)

@[simp] theorem run_ret (a : α) : (ret a : Handler σ ρ β ε α).run env s t = (.ok a,s,t) := rfl

@[simp] theorem run_raise (e : ε) :
    (raise e : Handler σ ρ β ε α).run env s t = (.error e,s,t) := rfl

@[simp] theorem run_read_bind (f : σ → α) (k : α → Handler σ ρ β ε γ) :
    (read f >>= k).run env s t = (k (f s)).run env s t := rfl

@[simp] theorem run_assign_bind (u : σ → σ) (k : Unit → Handler σ ρ β ε γ) :
    (assign u >>= k).run env s t = (k ()).run env (u s) t := rfl

@[simp] theorem run_ofExcept_bind (o : Except ε α) (k : α → Handler σ ρ β ε γ) :
    (ofExcept o >>= k).run env s t =
      match o with
      | .ok a => (k a).run env s t
      | .error e => (.error e,s,t) := by
  cases o <;> rfl

@[simp] theorem run_request_bind (r : ρ) (k : β → Handler σ ρ β ε γ) :
    (request r >>= k).run env s t =
      match (env t r).2 with
      | .ok b => (k b).run env s (env t r).1
      | .error e => (.error e,s,(env t r).1) := by
  simp only [request,call_bind,run]
  cases (env t r).2 <;> rfl

variable {env s t} {s' : σ} {t' : τ} {e : ε}

theorem ofExcept_bind_error {o : Except ε α} {k : α → Handler σ ρ β ε γ}
    (h : (ofExcept o >>= k).run env s t = (.error e,s',t')) :
    (o = .error e ∧ s' = s) ∨ ∃ a,o = .ok a ∧ (k a).run env s t = (.error e,s',t') := by
  cases o with
  | ok a => exact .inr ⟨a,rfl,h⟩
  | error e' =>
    obtain ⟨rfl,rfl,_⟩ := h
    exact .inl ⟨rfl,rfl⟩

theorem request_bind_error {r : ρ} {k : β → Handler σ ρ β ε γ}
    (h : (request r >>= k).run env s t = (.error e,s',t')) :
    (env t r = (t',.error e) ∧ s' = s) ∨
      ∃ b,env t r = ((env t r).1,.ok b) ∧ (k b).run env s (env t r).1 = (.error e,s',t') := by
  rw [run_request_bind] at h
  generalize env t r = answer at h ⊢
  obtain ⟨t₁,o⟩ := answer
  cases o with
  | ok b => exact .inr ⟨b,rfl,h⟩
  | error e' =>
    obtain ⟨rfl,rfl,rfl⟩ := h
    exact .inl ⟨rfl,rfl⟩

end Run

theorem run_tryCatch {τ : Type} (env : τ → ρ → τ × Except ε β) (h : Handler σ ρ β ε α)
    (c : ε → Handler σ ρ β ε α) (s : σ) (t : τ) :
    (h.tryCatch c).run env s t =
      match h.run env s t with
      | (.ok a,s',t') => (.ok a,s',t')
      | (.error e,s',t') => (c e).run env s' t' := by
  induction h generalizing s t with
  | ret a => rfl
  | raise e => rfl
  | get k ih => simpa only [tryCatch,run] using ih s s t
  | modify u h ih => simpa only [tryCatch,run] using ih (u s) t
  | call r k ih => simpa only [tryCatch,run] using ih (env t r).2 s (env t r).1

/-- Where a handler stops: at its end, or at its next outgoing request. -/
inductive Stop (σ ρ β ε α : Type) where
  | done : Except ε α → Stop σ ρ β ε α
  | calling : ρ → (Except ε β → Handler σ ρ β ε α) → Stop σ ρ β ε α

/-- Run one segment: everything up to the next outgoing request. -/
def advance : Handler σ ρ β ε α → σ → σ × Stop σ ρ β ε α
  | ret a, s => (s,.done (.ok a))
  | raise e, s => (s,.done (.error e))
  | get k, s => (k s).advance s
  | modify u h, s => h.advance (u s)
  | call r k, s => (s,.calling r k)

end Handler
end GrpKeySec
