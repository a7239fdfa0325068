import Emitter.Include
import Mathlib.Data.List.Basic
import Mathlib.Data.List.Induction
import Mathlib.Data.List.Perm.Basic

/-! The orders of include lines are total, and only equal texts tie in them. So the lines of a set
stand in the one strictly increasing order that they have, and depend only on what is in the set. -/

namespace Emitter

namespace Text

theorem order_eq (a b : List Char) : order a b = List.compareLex (compareOn Char.toNat) a b := by
  induction a generalizing b with
  | nil => cases b <;> rfl
  | cons c rest ih =>
    cases b with
    | nil => rfl
    | cons c' rest' => rw [order, List.compareLex_cons_cons, ih, compareOn]

instance : Std.TransCmp order := by
  rw [funext₂ order_eq]
  infer_instance

theorem eq_of_order {a b : List Char} (h : order a b = .eq) : a = b := by
  induction a generalizing b with
  | nil =>
    cases b with
    | nil => rfl
    | cons => cases h
  | cons c rest ih =>
    cases b with
    | nil => cases h
    | cons c' rest' =>
      rw [order, Ordering.then_eq_eq, Nat.compare_eq_eq] at h
      rw [Char.toNat_inj.1 h.1, ih h.2]

/-- It is the order of lists by the order of their characters. -/
theorem order_eq_lt {a b : List Char} : order a b = .lt ↔ a < b := by
  induction a generalizing b with
  | nil => cases b <;> simp [order]
  | cons c rest ih =>
    cases b with
    | nil => simp [order]
    | cons c' rest' =>
      rw [order, Ordering.then_eq_lt, Nat.compare_eq_lt, Nat.compare_eq_eq, ih, Char.toNat_inj,
        List.cons_lt_cons_iff]
      rfl

/-- Texts can be compared by what is made of them. -/
instance (view : String → List Char) : Std.TransCmp fun a b => order (view a) (view b) where
  eq_swap := Std.OrientedCmp.eq_swap
  isLE_trans := Std.TransCmp.isLE_trans

end Text

namespace IncludeOrder

/-- All texts are comparable, and only equal ones tie. -/
structure IsTotal (order : IncludeOrder) : Prop where
  trans : Std.TransCmp fun a b => order.compare a b
  eq_of_tie : ∀ a b, order.compare a b = .eq → a = b

theorem isTotal_ordinal : ordinal.IsTotal where
  trans := inferInstanceAs (Std.TransCmp fun a b : String => Text.order a.toList b.toList)
  eq_of_tie _ _ tie := String.toList_inj.1 (Text.eq_of_order tie)

/-- Texts that differ only in case are compared as they are. -/
theorem isTotal_caseInsensitive : caseInsensitive.IsTotal where
  trans := inferInstanceAs (Std.TransCmp (compareLex
    (fun a b : String =>
      Text.order (a.toList.map Char.toLower) (b.toList.map Char.toLower))
    fun a b : String => Text.order a.toList b.toList))
  eq_of_tie _ _ tie := String.toList_inj.1 (Text.eq_of_order (Ordering.then_eq_eq.1 tie).2)

section

variable {order : IncludeOrder} (trans : Std.TransCmp fun a b => order.compare a b)
include trans

/-- The comparison that lines are sorted by is transitive. -/
theorem le_trans (a b c : String) (ab : order.compare a b != .gt) (bc : order.compare b c != .gt) :
    order.compare a c != .gt := by
  have isLE (o : Ordering) : (o != .gt) = o.isLE := by cases o <;> rfl
  rw [isLE] at *
  exact trans.isLE_trans ab bc

theorem le_total (a b : String) :
    (order.compare a b != .gt || order.compare b a != .gt) = true := by
  have swap : order.compare b a = (order.compare a b).swap := trans.eq_swap
  rw [swap]
  cases order.compare a b <;> rfl

end

/-- Without the case of its letters. -/
def lower (text : String) : List Char := text.toList.map Char.toLower

/-- A text belongs before another one. -/
def Before : IncludeOrder → String → String → Prop
  | ordinal, a, b => a < b
  | caseInsensitive, a, b => lower a < lower b ∨ lower a = lower b ∧ a < b
  | custom compare, a, b => compare a b = .lt

theorem before_iff {order : IncludeOrder} {a b : String} :
    order.Before a b ↔ order.compare a b = .lt := by
  cases order with
  | ordinal => exact String.lt_iff.trans Text.order_eq_lt.symm
  | caseInsensitive =>
    have tie : Text.order (lower a) (lower b) = .eq ↔ lower a = lower b :=
      ⟨Text.eq_of_order, fun same => same ▸ Std.ReflCmp.compare_self⟩
    have less : Text.order a.toList b.toList = .lt ↔ a < b := by
      rw [Text.order_eq_lt, String.lt_iff]
    rw [compare, Ordering.then_eq_lt, less]
    exact or_congr Text.order_eq_lt.symm (and_congr_left' tie.symm)
  | custom compare => exact Iff.rfl

/-- Each text belongs before all that come after it. -/
def Increasing (order : IncludeOrder) (texts : List String) : Prop := texts.Pairwise order.Before

variable {order : IncludeOrder}

theorem IsTotal.swap (total : order.IsTotal) (a b : String) :
    order.compare a b = (order.compare b a).swap :=
  total.trans.eq_swap

theorem Increasing.nodup {texts : List String} (total : order.IsTotal)
    (increasing : order.Increasing texts) : texts.Nodup := by
  refine increasing.imp fun {a b} before same => ?_
  have less := before_iff.1 before
  have greater := total.swap a b
  rw [same] at less greater
  rw [less] at greater
  cases greater

/-- There is one increasing order of some texts. -/
theorem Increasing.eq_of_mem_iff {a b : List String} (total : order.IsTotal)
    (ha : order.Increasing a) (hb : order.Increasing b) (h : ∀ text, text ∈ a ↔ text ∈ b) :
    a = b := by
  have perm : a.Perm b :=
    (List.perm_ext_iff_of_nodup (ha.nodup total) (hb.nodup total)).2 h
  -- Two lists with the same members could still differ in order if two texts came both ways.
  refine perm.eq_of_pairwise (fun x y _ _ first second => ?_) ha hb
  have greater := before_iff.1 second
  rw [total.swap, before_iff.1 first] at greater
  cases greater

end IncludeOrder

namespace IncludeSet

/-! ## Distinct texts -/

theorem distinct_concat (texts : List String) (text : String) :
    distinct (texts ++ [text]) =
      if text ∈ distinct texts then distinct texts else distinct texts ++ [text] := by
  rw [distinct, List.foldl_append]
  rfl

theorem mem_distinct {texts : List String} {text : String} :
    text ∈ distinct texts ↔ text ∈ texts := by
  induction texts using List.reverseRecOn with
  | nil => rfl
  | append_singleton texts last ih =>
    rw [distinct_concat, List.mem_append, List.mem_singleton, ← ih]
    split
    · next known => exact ⟨.inl, fun h => h.elim id fun same => same ▸ known⟩
    · rw [List.mem_append, List.mem_singleton]

theorem nodup_distinct (texts : List String) : (distinct texts).Nodup := by
  induction texts using List.reverseRecOn with
  | nil => exact .nil
  | append_singleton texts last ih =>
    rw [distinct_concat]
    split
    · exact ih
    · next new =>
      refine List.nodup_append.2 ⟨ih, List.pairwise_singleton _ _, fun a old b here same => ?_⟩
      rw [same, List.mem_singleton.1 here] at old
      exact new old

/-! ## The lines of a set -/

variable {set : IncludeSet} {directory : Path}

theorem mem_render {text : String} :
    text ∈ set.render directory ↔ ∃ p ∈ set.paths, line directory p = text := by
  rw [render, (List.mergeSort_perm _ _).mem_iff, mem_distinct, List.mem_map]

theorem nodup_render (set : IncludeSet) (directory : Path) : (set.render directory).Nodup :=
  (List.mergeSort_perm _ _).nodup_iff.2 (nodup_distinct _)

theorem increasing_render (total : set.order.IsTotal) :
    set.order.Increasing (set.render directory) := by
  have sorted : (set.render directory).Pairwise fun a b => (set.order.compare a b != .gt) = true :=
    List.pairwise_mergeSort (IncludeOrder.le_trans total.trans)
      (IncludeOrder.le_total total.trans) _
  refine (sorted.and (nodup_render set directory)).imp fun {a b} ⟨notGreater, other⟩ => ?_
  rw [IncludeOrder.before_iff]
  cases compared : set.order.compare a b with
  | lt => rfl
  | eq => exact absurd (total.eq_of_tie a b compared) other
  | gt => rw [compared] at notGreater; cases notGreater

end IncludeSet

end Emitter
