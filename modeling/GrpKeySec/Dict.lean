import Mathlib.Data.List.Nodup
set_option autoImplicit false

namespace GrpKeySec

/-- Write one key of an association list: replace its value in place, or append
the pair when the key is new. -/
def upsert {κ ν : Type} [DecidableEq κ] (k : κ) (v : ν) : List (κ × ν) → List (κ × ν)
  | [] => [(k,v)]
  | p :: rest => if p.1 = k then (k,v) :: rest else p :: upsert k v rest

theorem upsert_keys {κ ν : Type} [DecidableEq κ] (k : κ) (v : ν) (l : List (κ × ν)) :
    (upsert k v l).map Prod.fst =
      if k ∈ l.map Prod.fst then l.map Prod.fst else l.map Prod.fst ++ [k] := by
  induction l with
  | nil => simp [upsert]
  | cons p rest ih =>
    by_cases hp : p.1 = k
    · simp [upsert,hp]
    · have hk : k ≠ p.1 := fun h => hp h.symm
      simp only [upsert,if_neg hp,List.map_cons,ih,List.mem_cons,hk,false_or]
      split <;> rfl

theorem upsert_nodup {κ ν : Type} [DecidableEq κ] (k : κ) (v : ν) (l : List (κ × ν))
    (h : (l.map Prod.fst).Nodup) : ((upsert k v l).map Prod.fst).Nodup := by
  rw [upsert_keys]
  split
  · exact h
  · rename_i hk
    exact List.Nodup.append h (List.nodup_singleton k) (by simpa using hk)

theorem lookup_cons_ite {κ ν : Type} [DecidableEq κ] (k q : κ) (x : ν) (l : List (κ × ν)) :
    List.lookup k ((q,x) :: l) = if k = q then some x else l.lookup k := by
  by_cases h : k = q
  · simp [h]
  · have hb : (k == q) = false := by simpa using h
    simp [List.lookup_cons,h,hb]

theorem lookup_upsert {κ ν : Type} [DecidableEq κ] (k k' : κ) (v : ν) (l : List (κ × ν)) :
    (upsert k v l).lookup k' = if k' = k then some v else l.lookup k' := by
  induction l with
  | nil => simp [upsert,lookup_cons_ite]
  | cons p rest ih =>
    obtain ⟨q,x⟩ := p
    by_cases hq : q = k
    · subst q
      by_cases hk : k' = k <;> simp [upsert,lookup_cons_ite,hk]
    · by_cases hk : k' = q
      · subst k'
        simp [upsert,hq]
      · simp [upsert,hq,lookup_cons_ite,hk,ih]

theorem lookup_eq_some_iff {κ ν : Type} [DecidableEq κ] {k : κ} {v : ν} {l : List (κ × ν)}
    (h : (l.map Prod.fst).Nodup) : l.lookup k = some v ↔ (k,v) ∈ l := by
  induction l with
  | nil => simp
  | cons p l ih =>
    obtain ⟨q,x⟩ := p
    obtain ⟨hq,hrest⟩ := List.nodup_cons.mp h
    rw [lookup_cons_ite,List.mem_cons]
    by_cases hk : k = q
    · subst hk
      have hnot : (k,v) ∉ l := fun hm => hq (List.mem_map.mpr ⟨(k,v),hm,rfl⟩)
      simp [hnot,eq_comm]
    · simp [hk,ih hrest]

theorem upsert_of_notMem {κ ν : Type} [DecidableEq κ] {k : κ} (v : ν) {l : List (κ × ν)}
    (h : k ∉ l.map Prod.fst) : upsert k v l = l ++ [(k,v)] := by
  induction l with
  | nil => rfl
  | cons p l ih =>
    obtain ⟨q,x⟩ := p
    rw [List.map_cons,List.mem_cons,not_or] at h
    simp [upsert,Ne.symm h.1,ih h.2]

/-- A dictionary that keeps its keys in the order of their first insertion. -/
structure Dict (κ ν : Type) where
  entries : List (κ × ν)
  nodup : (entries.map Prod.fst).Nodup
  deriving DecidableEq

namespace Dict

variable {κ ν : Type}

def empty : Dict κ ν := ⟨[],List.nodup_nil⟩

instance : EmptyCollection (Dict κ ν) := ⟨empty⟩

def keys (d : Dict κ ν) : List κ := d.entries.map Prod.fst

instance : Membership κ (Dict κ ν) := ⟨fun d k => k ∈ d.keys⟩

theorem mem_def {d : Dict κ ν} {k : κ} : k ∈ d ↔ k ∈ d.keys := Iff.rfl

@[simp] theorem not_mem_empty (k : κ) : k ∉ (∅ : Dict κ ν) := List.not_mem_nil

variable [DecidableEq κ]

instance (d : Dict κ ν) (k : κ) : Decidable (k ∈ d) :=
  inferInstanceAs (Decidable (k ∈ d.keys))

def get? (d : Dict κ ν) (k : κ) : Option ν := d.entries.lookup k

def set (d : Dict κ ν) (k : κ) (v : ν) : Dict κ ν :=
  ⟨upsert k v d.entries,upsert_nodup k v d.entries d.nodup⟩

@[simp] theorem get?_empty (k : κ) : (∅ : Dict κ ν).get? k = none := rfl

theorem get?_set (d : Dict κ ν) (k k' : κ) (v : ν) :
    (d.set k v).get? k' = if k' = k then some v else d.get? k' :=
  lookup_upsert k k' v d.entries

@[simp] theorem get?_set_self (d : Dict κ ν) (k : κ) (v : ν) :
    (d.set k v).get? k = some v := by simp [get?_set]

theorem get?_set_ne (d : Dict κ ν) {k k' : κ} (v : ν) (h : k' ≠ k) :
    (d.set k v).get? k' = d.get? k' := by simp [get?_set,h]

theorem keys_set (d : Dict κ ν) (k : κ) (v : ν) :
    (d.set k v).keys = if k ∈ d then d.keys else d.keys ++ [k] :=
  upsert_keys k v d.entries

@[simp] theorem mem_set {d : Dict κ ν} {k k' : κ} {v : ν} :
    k' ∈ d.set k v ↔ k' = k ∨ k' ∈ d := by
  rw [mem_def,keys_set]
  by_cases hk : k ∈ d
  · rw [if_pos hk]
    constructor
    · exact Or.inr
    · rintro (rfl | h)
      · exact hk
      · exact h
  · rw [if_neg hk]
    simp [mem_def,or_comm]

theorem mem_iff_get? {d : Dict κ ν} {k : κ} : k ∈ d ↔ ∃ v, d.get? k = some v := by
  rw [← Option.isSome_iff_exists,get?,List.lookup_isSome_iff,mem_def,keys,List.mem_map]
  constructor
  · rintro ⟨p,hp,rfl⟩
    exact ⟨p,hp,beq_self_eq_true p.1⟩
  · rintro ⟨p,hp,hk⟩
    exact ⟨p,hp,(beq_iff_eq.mp hk).symm⟩

theorem mem_of_get? {d : Dict κ ν} {k : κ} {v : ν} (h : d.get? k = some v) : k ∈ d :=
  mem_iff_get?.mpr ⟨v,h⟩

theorem get?_eq_some_iff {d : Dict κ ν} {k : κ} {v : ν} :
    d.get? k = some v ↔ (k,v) ∈ d.entries :=
  lookup_eq_some_iff d.nodup

theorem entries_set_of_notMem {d : Dict κ ν} {k : κ} (v : ν) (h : k ∉ d) :
    (d.set k v).entries = d.entries ++ [(k,v)] := upsert_of_notMem v h

theorem filter_entries_keys (d : Dict κ ν) (p : ν → Bool) :
    (d.entries.filter (fun e => p e.2)).map Prod.fst = d.keys.filter (fun k => (d.get? k).any p) := by
  rw [keys,List.filter_map]
  refine congrArg (List.map Prod.fst) (List.filter_congr ?_)
  rintro ⟨k,v⟩ he
  simp [get?_eq_some_iff.mpr he]

def All (P : κ → ν → Prop) (d : Dict κ ν) : Prop := ∀ k v, d.get? k = some v → P k v

def Extends (d d' : Dict κ ν) : Prop := ∀ k v, d.get? k = some v → d'.get? k = some v

/-- Under each key the one value that `f` has for it. -/
def Sound (f : κ → Option ν) (d : Dict κ ν) : Prop := ∀ k v, d.get? k = some v → f k = some v

theorem extends_refl (d : Dict κ ν) : d.Extends d := fun _ _ h => h

theorem Extends.trans {d d' d'' : Dict κ ν} (h : d.Extends d') (h' : d'.Extends d'') :
    d.Extends d'' := fun k v hv => h' k v (h k v hv)

theorem Sound.set {f : κ → Option ν} {d : Dict κ ν} (h : d.Sound f) {k : κ} {v : ν}
    (hv : f k = some v) : (d.set k v).Sound f := by
  intro q x hx
  rw [get?_set] at hx
  split at hx
  · rename_i hq
    rw [hq,hv]
    exact hx
  · exact h q x hx

theorem Sound.extends_set {f : κ → Option ν} {d : Dict κ ν} (h : d.Sound f) {k : κ} {v : ν}
    (hv : f k = some v) : d.Extends (d.set k v) := by
  intro q x hx
  rw [get?_set]
  split
  · rename_i hq
    rw [← hv,← hq]
    exact h q x hx
  · exact hx

theorem Sound.eq {f : κ → Option ν} {d d' : Dict κ ν} (h : d.Sound f) (h' : d'.Sound f) {k : κ}
    {v v' : ν} (hv : d.get? k = some v) (hv' : d'.get? k = some v') : v = v' :=
  Option.some.inj ((h k v hv).symm.trans (h' k v' hv'))

end Dict

/-! Numbered keys. -/

theorem append_repr_inj (stem : String) {n m : Nat} :
    stem ++ n.repr = stem ++ m.repr ↔ n = m := by
  constructor
  · intro h
    have hlist := congrArg String.toList h
    simp only [String.toList_append,Nat.toList_repr] at hlist
    have hdigits := congrArg (Nat.ofDigitChars 10 · 0) (List.append_cancel_left hlist)
    simpa only [Nat.ofDigitChars_ten_toDigits] using hdigits
  · intro h
    rw [h]

end GrpKeySec
