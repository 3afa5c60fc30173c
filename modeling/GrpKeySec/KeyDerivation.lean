import GrpKeySec.Separator
set_option autoImplicit false

/-!
The key hierarchy K -> K_AUSF -> K_AMF -> K_gNB -> UP_ENC of the group_key_mgmt
core. Keys are strings, and every derivation has the form
`<label>_derived_from_<first ten characters of the parent>`.
-/

namespace GrpKeySec

/-- Python's `s[:n]`. -/
def sliceTo (s : String) (n : Nat) : String := String.ofList (s.toList.take n)

def separator : String := "_derived_from_"

def derivedKey (label parent : String) : String := label ++ separator ++ sliceTo parent 10

def Udm.deriveKAusf (k : String) : String := derivedKey "K_AUSF" k

def Amf.deriveKAmf (kAusf : String) : String := derivedKey "K_AMF" kAusf

def Amf.deriveKey (parentKey keyName : String) : String := derivedKey keyName parentKey

def Gnb.deriveKey (parentKey keyName : String) : String := derivedKey keyName parentKey

def Smf.deriveKey (parentKey keyName : String) : String := derivedKey keyName parentKey

theorem sliceTo_append (s t : String) (n : Nat) (h : n ≤ s.toList.length) :
    sliceTo (s ++ t) n = sliceTo s n := by
  simp [sliceTo,List.take_append_of_le_length h]

theorem separator_length : separator.toList.length = 14 := by decide

theorem sliceTo_derivedKey (label parent : String) :
    sliceTo (derivedKey label parent) 10 = sliceTo (label ++ separator) 10 := by
  have h : 10 ≤ (label ++ separator).toList.length := by
    have hs := separator_length
    rw [String.toList_append,List.length_append]
    omega
  exact sliceTo_append _ _ 10 h

theorem sliceTo_length_le (s : String) (n : Nat) : (sliceTo s n).toList.length ≤ n := by
  simp only [sliceTo,String.toList_ofList,List.length_take]
  omega

/-- The separator ends and begins with the same character, but ten places are not enough
to move its end there. -/
theorem separator_clearUpTo : Separator.ClearUpTo separator.toList 10 := by decide

theorem derivedKey_inj (label label' p q : String) :
    derivedKey label p = derivedKey label' q ↔ label = label' ∧ sliceTo p 10 = sliceTo q 10 := by
  have hjoin := Separator.join_eq_iff separator_clearUpTo (x := label.toList) (y := label'.toList)
    (sliceTo_length_le p 10) (sliceTo_length_le q 10)
  simpa only [derivedKey,String.toList_append,List.append_assoc,← String.toList_inj] using hjoin

theorem derivedKey_eq_iff (label p q : String) :
    derivedKey label p = derivedKey label q ↔ sliceTo p 10 = sliceTo q 10 := by
  simp [derivedKey_inj]

/-- Two derived keys agree only where they are for one purpose, whichever service derives
them and whatever the names and parents contain. -/
theorem deriveKey_eq_iff (p p' n n' : String) :
    ∀ f ∈ [Amf.deriveKey,Gnb.deriveKey,Smf.deriveKey],
      ∀ g ∈ [Amf.deriveKey,Gnb.deriveKey,Smf.deriveKey],
        (f p n = g p' n' ↔ n = n' ∧ sliceTo p 10 = sliceTo p' 10) ∧
          (n ≠ n' → f p n ≠ g p' n') := by
  have hshared : ∀ f ∈ [Amf.deriveKey,Gnb.deriveKey,Smf.deriveKey],
      f = fun parent name => derivedKey name parent := by
    intro f hf
    simp only [List.mem_cons,List.not_mem_nil,or_false] at hf
    rcases hf with rfl | rfl | rfl <;> rfl
  intro f hf g hg
  rw [hshared f hf,hshared g hg]
  refine ⟨derivedKey_inj n n' p p',fun hne heq => ?_⟩
  exact hne ((derivedKey_inj n n' p p').mp heq).1

theorem deriveKey_nested_name :
    Amf.deriveKey "K_gNB" "UP_ENC" ≠ Smf.deriveKey "K_gNB" "UP_ENC_derived_from_K_gNB" :=
  (deriveKey_eq_iff _ _ _ _ _ (by simp) _ (by simp)).2 (by decide)

end GrpKeySec
