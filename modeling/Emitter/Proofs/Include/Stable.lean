import Emitter.Proofs.Include.Preamble

/-! Sets of includes whatever was done with them. Two equalities take out repetitions, one of places
when a path is inserted and one of texts when the lines are written, and the lines are then sorted
stably. So a set keeps the first spelling of each place (`History.paths_set`), and its lines are the
texts of its paths, each once, in order with ties as they were inserted (`stablySorts_render`). -/

namespace Emitter

theorem Text.toList_toLower (text : String) :
    text.toLower.toList = text.toList.map Char.toLower :=
  String.toList_map

/-! ## Stably sorted texts -/

namespace IncludeOrder

/-- The orders that come with the program compare as they should. -/
theorem transCmp {order : IncludeOrder}
    (custom : ∀ compare, order = .custom compare → Std.TransCmp compare) :
    Std.TransCmp fun a b => order.compare a b := by
  cases order with
  | ordinal => exact isTotal_ordinal.trans
  | caseInsensitive => exact isTotal_caseInsensitive.trans
  | custom compare => exact custom compare rfl

/-- The distinct ones of some texts, none below one before it, and those that tie as they stood at
first. -/
structure StablySorts (order : IncludeOrder) (texts sorted : List String) : Prop where
  mem_iff : ∀ text, text ∈ sorted ↔ text ∈ texts
  nodup : sorted.Nodup
  ascending : sorted.Pairwise fun a b => order.compare b a ≠ .lt
  stable : ∀ text, sorted.filter (order.compare text · == .eq) =
    texts.eraseDups.filter (order.compare text · == .eq)

section

variable {order : IncludeOrder} (trans : Std.TransCmp fun a b => order.compare a b)
include trans

theorem tie_of_tie {text a b : String} (ha : order.compare text a = .eq)
    (hb : order.compare text b = .eq) : order.compare a b = .eq := by
  have swap : order.compare a text = (order.compare text a).swap := trans.eq_swap
  rw [ha] at swap
  exact trans.eq_trans swap hb

/-- Sorting keeps the texts that tie, and their order. -/
theorem filter_mergeSort (texts : List String) (text : String) :
    (texts.mergeSort fun a b => order.compare a b != .gt).filter (order.compare text · == .eq) =
      texts.filter (order.compare text · == .eq) := by
  have tied : (texts.filter (order.compare text · == .eq)).Pairwise fun a b =>
      (order.compare a b != .gt) = true := by
    refine List.pairwise_of_forall_mem_list fun a ha b hb => ?_
    have tieA : order.compare text a = .eq := by simpa using (List.mem_filter.1 ha).2
    have tieB : order.compare text b = .eq := by simpa using (List.mem_filter.1 hb).2
    rw [tie_of_tie trans tieA tieB]
    rfl
  have kept := (List.sublist_mergeSort (le_trans trans) (le_total trans) tied
    List.filter_sublist).filter (order.compare text · == .eq)
  simp only [List.filter_filter, Bool.and_self] at kept
  exact (kept.eq_of_length ((List.mergeSort_perm _ _).filter _).length_eq.symm).symm

end

/-- A text between two that differ only in case differs from them only in case. -/
theorem StablySorts.toLower_eq {texts sorted : List String}
    (sorts : caseInsensitive.StablySorts texts sorted) {a b c : String}
    (between : [a, b, c].Sublist sorted) (same : a.toLower = c.toLower) :
    b.toLower = a.toLower := by
  have lower {a b : String} (h : caseInsensitive.compare a b ≠ .lt) :
      Text.order a.toLower.toList b.toLower.toList ≠ .lt := by
    intro less
    refine h ?_
    rw [Text.toList_toLower, Text.toList_toLower] at less
    rw [IncludeOrder.compare, less]
    rfl
  obtain ⟨first, rest⟩ := List.pairwise_cons.1 (sorts.ascending.sublist between)
  have notBelow := lower (first b List.mem_cons_self)
  have notAbove := lower ((List.pairwise_cons.1 rest).1 c List.mem_cons_self)
  have swap : Text.order a.toLower.toList b.toLower.toList =
      (Text.order b.toLower.toList a.toLower.toList).swap := Std.OrientedCmp.eq_swap
  rw [← same, swap] at notAbove
  have tie : Text.order b.toLower.toList a.toLower.toList = .eq := by
    cases compared : Text.order b.toLower.toList a.toLower.toList with
    | lt => exact absurd compared notBelow
    | eq => rfl
    | gt => rw [compared] at notAbove; exact absurd rfl notAbove
  exact String.toList_inj.1 (Text.eq_of_order tie)

end IncludeOrder

namespace IncludeSet

/-! ## Repetitions -/

/-- Taking over what is not yet there, one after the other, is taking out repetitions. -/
theorem foldl_unless_any {α : Type} (same : α → α → Bool) (list seen : List α) :
    list.foldl (fun seen a => if seen.any (same a) then seen else seen ++ [a]) seen =
      List.eraseDupsBy.loop same list seen.reverse := by
  induction list generalizing seen with
  | nil => rw [List.foldl_nil, List.eraseDupsBy.loop, List.reverse_reverse]
  | cons a rest ih =>
    rw [List.foldl_cons, ih, List.eraseDupsBy.loop, List.any_reverse]
    cases seen.any (same a) with
    | true => rfl
    | false => rw [if_neg Bool.false_ne_true, List.reverse_append]; rfl

theorem distinct_eq (texts : List String) : distinct texts = texts.eraseDups := by
  have known (text : String) (seen : List String) : text ∈ seen ↔ seen.any (text == ·) = true := by
    simp
  simp only [distinct, known]
  exact foldl_unless_any (· == ·) texts []

theorem insertAll_eq (set : IncludeSet) (paths : List Path) : set.insertAll paths =
    { set with paths := List.eraseDupsBy.loop Path.same paths set.paths.reverse } := by
  rw [← foldl_unless_any]
  induction paths generalizing set with
  | nil => rfl
  | cons p rest ih =>
    have step : set.insert p =
        { set with paths := if set.paths.any p.same then set.paths else set.paths ++ [p] } := by
      unfold insert contains
      split <;> rfl
    rw [List.foldl_cons]
    have first : set.insertAll (p :: rest) = (set.insert p).insertAll rest := rfl
    rw [first, ih, step]

theorem insertAll_concat (set : IncludeSet) (paths : List Path) (last : Path) :
    set.insertAll (paths ++ [last]) = (set.insertAll paths).insert last :=
  List.foldl_concat ..

theorem contains_insertAll (set : IncludeSet) (paths : List Path) (p : Path) :
    (set.insertAll paths).contains p = (set.contains p || paths.any p.same) := by
  induction paths using List.reverseRecOn with
  | nil => exact (Bool.or_false _).symm
  | append_singleton paths last ih =>
    rw [insertAll_concat, contains_insert, ih, List.any_append, List.any_cons, List.any_nil,
      Bool.or_false, Bool.or_left_comm, Bool.or_comm (p.same last)]

/-- Taking over a set that was put together from paths is inserting them all. -/
theorem merge_insertAll (set : IncludeSet) {empty : IncludeSet} (nothing : empty.paths = [])
    (paths : List Path) : set.merge (empty.insertAll paths) = set.insertAll paths := by
  induction paths using List.reverseRecOn with
  | nil =>
    show set.insertAll empty.paths = set
    rw [nothing]
    rfl
  | append_singleton paths last ih =>
    have merged : set.merge (empty.insertAll paths) = set.insertAll (empty.insertAll paths).paths :=
      rfl
    rw [insertAll_concat, insertAll_concat, ← ih, insert]
    split
    · next known =>
      have known' : (set.merge (empty.insertAll paths)).contains last = true := by
        rw [merged, contains_insertAll]
        exact Bool.or_eq_true_iff.2 (.inr known)
      rw [insert, if_pos known']
    · exact List.foldl_concat ..

/-- No two paths of the set name the same place. -/
theorem pairwise_insertAll {set : IncludeSet}
    (apart : set.paths.Pairwise fun p q => p.same q = false) (paths : List Path) :
    (set.insertAll paths).paths.Pairwise fun p q => p.same q = false := by
  induction paths using List.reverseRecOn with
  | nil => exact apart
  | append_singleton paths last ih =>
    rw [insertAll_concat, insert]
    split
    · exact ih
    · next new =>
      refine List.pairwise_append.2 ⟨ih, List.pairwise_singleton _ _, fun p old q here => ?_⟩
      obtain rfl := List.mem_singleton.1 here
      rw [Bool.eq_false_iff]
      intro same
      refine new (List.any_eq_true.2 ⟨p, old, ?_⟩)
      rw [Path.same_iff] at same ⊢
      exact same.symm

theorem prefix_insertAll (set : IncludeSet) (paths : List Path) :
    set.paths <+: (set.insertAll paths).paths := by
  induction paths using List.reverseRecOn with
  | nil => exact List.prefix_rfl
  | append_singleton paths last ih =>
    rw [insertAll_concat, insert]
    split
    · exact ih
    · exact ih.trans (List.prefix_append _ _)

theorem stablySorts_render {set : IncludeSet}
    (trans : Std.TransCmp fun a b => set.order.compare a b) (directory : Path) :
    set.order.StablySorts (set.paths.map (line directory)) (set.render directory) where
  mem_iff text := by rw [mem_render, List.mem_map]
  nodup := nodup_render set directory
  ascending := by
    refine (List.pairwise_mergeSort (IncludeOrder.le_trans trans) (IncludeOrder.le_total trans)
      _).imp fun {a b} notAbove below => ?_
    have swap : set.order.compare a b = (set.order.compare b a).swap := trans.eq_swap
    rw [swap, below] at notAbove
    cases notAbove
  stable text := by rw [render, IncludeOrder.filter_mergeSort trans, distinct_eq]

/-! ## Histories -/

/-- What is done with a set: paths are inserted, another set is taken over, the order is changed. -/
inductive History where
  | empty (order : IncludeOrder)
  | insert (before : History) (p : Path)
  | merge (before other : History)
  | setOrder (before : History) (order : IncludeOrder)

namespace History

/-- The set in the end. -/
def set : History → IncludeSet
  | empty order => { order }
  | insert before p => before.set.insert p
  | merge before other => before.set.merge other.set
  | setOrder before order => { before.set with order }

/-- All paths that were inserted, the first one first. -/
def inserted : History → List Path
  | empty _ => []
  | insert before p => before.inserted ++ [p]
  | merge before other => before.inserted ++ other.inserted
  | setOrder before _ => before.inserted

/-- Only the paths that were inserted and the last order count. -/
theorem set_eq (h : History) :
    h.set = IncludeSet.insertAll { order := h.set.order } h.inserted := by
  induction h with
  | empty order => rfl
  | insert before p ih =>
    rw [inserted, insertAll_concat, set, order_insert, ← ih]
  | merge before other ih ihOther =>
    have order : (before.merge other).set.order = before.set.order := order_insertAll _ _
    have joined : IncludeSet.insertAll { order := before.set.order }
        (before.inserted ++ other.inserted) = before.set.insertAll other.inserted := by
      nth_rewrite 2 [ih]
      exact List.foldl_append ..
    rw [order, inserted, joined, set, ihOther, merge_insertAll _ rfl]
  | setOrder before order ih =>
    rw [set, ih, insertAll_eq, insertAll_eq]
    rfl

/-- The places that were inserted, each with its first spelling. -/
theorem paths_set (h : History) : h.set.paths = h.inserted.eraseDupsBy Path.same := by
  rw [set_eq, insertAll_eq]
  rfl

end History

/-- Whatever was done with a set, it has the places that were inserted, each once and with its first
spelling. Taking over another set adds the places of that set after those that are there, and leaves
these and the order as they are. The lines are the texts of the paths, each once, sorted stably by
the last order; those that differ only in case stand together where the order does not look at it
first. -/
theorem render_of_history (h : History) (directory : Path) :
    h.set.paths = h.inserted.eraseDupsBy Path.same ∧
    h.set.paths.Pairwise (fun p q => p.same q = false) ∧
    (∀ other : History, (h.merge other).set.order = h.set.order ∧
      h.set.paths <+: (h.merge other).set.paths ∧
      ∀ p, (h.merge other).set.contains p = (h.set.contains p || other.set.contains p)) ∧
    ((∀ compare, h.set.order = .custom compare → Std.TransCmp compare) →
      h.set.order.StablySorts (h.set.paths.map (line directory)) (h.set.render directory)) ∧
    (h.set.order = .caseInsensitive → ∀ a b c, [a, b, c].Sublist (h.set.render directory) →
      a.toLower = c.toLower → b.toLower = a.toLower) := by
  refine ⟨h.paths_set, ?_, fun other => ⟨?_, ?_, fun p => ?_⟩, fun custom => ?_,
    fun caseless a b c between same => ?_⟩
  · rw [h.set_eq]
    exact pairwise_insertAll List.Pairwise.nil _
  · exact order_insertAll _ _
  · exact prefix_insertAll _ _
  · exact contains_insertAll _ _ p
  · exact stablySorts_render (IncludeOrder.transCmp custom) directory
  · have sorts : h.set.order.StablySorts _ (h.set.render directory) :=
      stablySorts_render (IncludeOrder.transCmp (by rw [caseless]; nofun)) directory
    rw [caseless] at sorts
    exact sorts.toLower_eq between same

/-- One file comes in two spellings, another one by a path and by an entry of the search path. -/
theorem render_of_history_spellings :
    let byLength : String → String → Ordering := compareOn String.length
    let other : History := ((History.empty .ordinal).insert ⟨"/src/./x.h"⟩).insert ⟨"/src/Bb.h"⟩
    let h : History := ((((History.empty .ordinal).insert ⟨"/src/bb.h"⟩).insert ⟨"/src/x.h"⟩).merge
      other).insert ⟨"bb.h"⟩
    let sorted : History := h.setOrder (.custom byLength)
    let caseless : History := ((((History.empty .ordinal).insert ⟨"/src/BB.h"⟩).insert
      ⟨"/src/Bb.h"⟩).merge h).setOrder .caseInsensitive
    sorted.set.paths = [⟨"/src/bb.h"⟩, ⟨"/src/x.h"⟩, ⟨"/src/Bb.h"⟩, ⟨"bb.h"⟩] ∧
      (∀ compare, sorted.set.order = .custom compare → Std.TransCmp compare) ∧
      sorted.set.order.StablySorts ["bb.h", "x.h", "Bb.h", "bb.h"] (sorted.set.render ⟨"/src"⟩) ∧
      caseless.set.order = .caseInsensitive ∧
      ["BB.h", "Bb.h", "bb.h"].Sublist (caseless.set.render ⟨"/src"⟩) ∧
      "BB.h".toLower = "bb.h".toLower ∧ "Bb.h".toLower = "BB.h".toLower := by
  intro byLength other h sorted caseless
  have paths : sorted.set.paths =
      [⟨"/src/bb.h"⟩, ⟨"/src/x.h"⟩, ⟨"/src/Bb.h"⟩, ⟨"bb.h"⟩] := by decide
  have custom : ∀ compare, sorted.set.order = .custom compare → Std.TransCmp compare := by
    rintro compare ⟨⟩
    exact inferInstanceAs (Std.TransCmp (compareOn String.length))
  have sorts := (render_of_history sorted ⟨"/src"⟩).2.2.2.1 custom
  have texts : sorted.set.paths.map (line ⟨"/src"⟩) = ["bb.h", "x.h", "Bb.h", "bb.h"] := by
    rw [paths]
    decide
  rw [texts] at sorts
  have order : caseless.set.order = .caseInsensitive := rfl
  have paths' : caseless.set.paths = [⟨"/src/BB.h"⟩, ⟨"/src/Bb.h"⟩, ⟨"/src/bb.h"⟩, ⟨"/src/x.h"⟩,
      ⟨"bb.h"⟩] := by decide
  have texts' : distinct (caseless.set.paths.map (line ⟨"/src"⟩)) =
      ["BB.h", "Bb.h", "bb.h", "x.h"] := by
    rw [paths']
    decide
  have between : ["BB.h", "Bb.h", "bb.h"].Sublist (caseless.set.render ⟨"/src"⟩) := by
    have trans := IncludeOrder.isTotal_caseInsensitive.trans
    rw [render, texts', order]
    exact List.sublist_mergeSort (IncludeOrder.le_trans trans) (IncludeOrder.le_total trans)
      (by decide) (List.sublist_append_left _ _)
  have lower : "BB.h".toLower = "bb.h".toLower := by
    rw [← String.toList_inj, Text.toList_toLower, Text.toList_toLower]
    decide
  have together := (render_of_history caseless ⟨"/src"⟩).2.2.2.2 order _ _ _ between lower
  exact ⟨paths, custom, sorts, order, between, lower, together⟩

end IncludeSet

end Emitter
