import Mathlib.Data.List.Forall2
import TemplateSyntax.Tree.Serial

/-! # Plain Data up to the Order of Fields

  Who reads plain data looks up the fields of a record by their names. So two pieces of data are
  the same to a reader if their records have the same values under all names, in whatever order
  (`Datum.Same`). A field that stands behind another one of its name is lost on the reader.

  Numbers that are not finite have one plain form, and no other two have (`Binary64.alike`).
-/

namespace TemplateSyntax

/-- Numbers that are told apart neither by their bits nor by one of them being finite. -/
def Binary64.alike (x y : Binary64) : Bool := x == y || (!x.isFinite && !y.isFinite)

namespace Datum

/-- What a record has under a name. -/
def field? (name : String) : Datum → Option Datum
  | record fields => fields.lookup name
  | _ => none

/-- The data are the same to a reader who looks up the fields of records by name. -/
inductive Same : Datum → Datum → Prop
  | null : Same null null
  | boolean (b : Bool) : Same (boolean b) (boolean b)
  | int (n : Int) : Same (int n) (int n)
  | float (x : Binary64) : Same (float x) (float x)
  | text (s : String) : Same (text s) (text s)
  | list {ds es : List Datum} (h : List.Forall₂ Same ds es) : Same (list ds) (list es)
  | record {fs gs : List (String × Datum)}
      (h : ∀ name, Option.Rel Same (fs.lookup name) (gs.lookup name)) :
      Same (record fs) (record gs)

/-- Data are the same as themselves. -/
theorem Same.refl : ∀ d : Datum, Same d d
  | .null => .null
  | .boolean b => .boolean b
  | .int n => .int n
  | .float x => .float x
  | .text s => .text s
  | .list ds => .list (List.forall₂_same.mpr fun d _ => Same.refl d)
  | .record fs => by
    refine .record fun name => ?_
    cases h : fs.lookup name with
    | none => exact .none
    | some d =>
      -- What is found is one of the fields, and so smaller than the record.
      obtain ⟨fs₁, fs₂, rfl, -⟩ := List.lookup_eq_some_iff.mp h
      have hsmaller : sizeOf d < sizeOf (fs₁ ++ (name, d) :: fs₂) := by
        have hmem : (name, d) ∈ fs₁ ++ (name, d) :: fs₂ := by simp
        have hlt := List.sizeOf_lt_of_mem hmem
        simp only [Prod.mk.sizeOf_spec] at hlt
        omega
      exact .some (Same.refl d)

section same

variable {d e x y : Datum}

/-- Data that are the same have the same value under a name. -/
theorem Same.field (h : Same d e) (name : String) (hx : d.field? name = some x)
    (hy : e.field? name = some y) : Same x y := by
  cases h with
  | record h =>
    have hname := h name
    rw [show List.lookup name _ = some x from hx, show List.lookup name _ = some y from hy] at hname
    cases hname with
    | some h => exact h
  | _ => cases hx

theorem eq_of_same_text {s s' : String} (h : Same (text s) (text s')) : s = s' := by
  cases h
  rfl

theorem eq_of_same_boolean {b b' : Bool} (h : Same (boolean b) (boolean b')) : b = b' := by
  cases h
  rfl

theorem eq_of_same_int {n n' : Int} (h : Same (int n) (int n')) : n = n' := by
  cases h
  rfl

theorem forall₂_of_same_list {ds es : List Datum} (h : Same (list ds) (list es)) :
    List.Forall₂ Same ds es := by
  cases h with
  | list h => exact h

/-- A text that is missing is told from every text. -/
theorem eq_of_same_text? {s s' : Option String} (h : Same (text? s) (text? s')) : s = s' := by
  cases s <;> cases s' <;> cases h <;> rfl

/-- A number has the plain form of those that are alike. -/
theorem number_eq_of_alike {x y : Binary64} (h : x.alike y = true) : number x = number y := by
  simp only [Binary64.alike, Bool.or_eq_true, Bool.and_eq_true, beq_iff_eq, Bool.not_eq_true'] at h
  rcases h with rfl | ⟨hx, hy⟩
  · rfl
  · simp [number, hx, hy]

theorem alike_of_same_number {x y : Binary64} (h : Same (number x) (number y)) :
    x.alike y = true := by
  unfold number at h
  by_cases hx : x.isFinite = true <;> by_cases hy : y.isFinite = true <;>
    simp only [hx, hy, if_true, if_false, Bool.false_eq_true] at h <;> cases h <;>
    simp [Binary64.alike, hx, hy]

end same

end Datum

end TemplateSyntax
