import Emitter.Proofs.Text.Pieces
import Emitter.Writer.Draft

/-! Text in whole lines. A line has its first carriage returns, then the margin, then what is left
of it; a line of returns alone has no margin. Writing a text and a newline at the start of a line
adds exactly these lines. -/

namespace Emitter

/-- Where lines are written: how deep, and with which prefix. -/
structure Layout where
  unit : Indent
  depth : Nat
  linePrefix : Option String
deriving DecidableEq, Repr

namespace Layout

def margin (l : Layout) : String := l.unit.levels l.depth ++ l.linePrefix.getD ""

/-- The same prefix at another depth. -/
def moved (l : Layout) (depth : Nat) : Layout := { l with depth }

def line (l : Layout) (text : List Char) : List Char :=
  let rest := text.dropWhile (· == '\r')
  text.takeWhile (· == '\r') ++ if rest = [] then [] else l.margin.toList ++ rest

/-- The lines of a text, each closed by a newline. -/
def paragraph (l : Layout) (text : String) : String :=
  String.ofList ((Text.split '\n' text.toList).flatMap fun piece => l.line piece ++ ['\n'])

end Layout

/-- Whether nothing stands on a line after one more character. -/
def freshOn (fresh : Bool) (c : Char) : Bool := c == '\n' || fresh && c == '\r'

/-- What goes in for a text: the margin stands before each character that begins a line. -/
def injected (margin : List Char) : Bool → List Char → List Char
  | _, [] => []
  | fresh, c :: rest =>
    (if fresh && !freshOn fresh c then margin else []) ++
      c :: injected margin (freshOn fresh c) rest

namespace Draft

def layout (d : Draft) : Layout := ⟨d.unit, d.level, d.linePrefix⟩

theorem margin_layout (d : Draft) : d.layout.margin = d.margin := rfl

theorem margin_push (d : Draft) (c : Char) : (d.push c).margin = d.margin := by
  unfold push; split <;> rfl

theorem push_eq (d : Draft) (c : Char) :
    d.push c = { d with
      body := d.body ++ String.ofList (injected d.margin.toList d.fresh [c])
      fresh := freshOn d.fresh c
      tight := false } := by
  by_cases newline : c = '\n'
  · subst newline
    cases fresh : d.fresh <;> simp [push, isBreak, injected, freshOn, fresh, String.ext_iff]
  · cases fresh : d.fresh <;> by_cases ret : c = '\r' <;>
      simp [push, isBreak, injected, freshOn, fresh, newline, ret, String.ext_iff]

/-- The closed form of writing. Only an empty text leaves the separation as it was. -/
theorem foldl_push_eq (d : Draft) (text : List Char) :
    text.foldl push d = { d with
      body := d.body ++ String.ofList (injected d.margin.toList d.fresh text)
      fresh := text.foldl freshOn d.fresh
      tight := d.tight && text.isEmpty } := by
  induction text generalizing d with
  | nil => simp [injected]
  | cons c rest ih =>
    rw [List.foldl_cons, ih, margin_push, push_eq]
    simp [injected, String.ext_iff]

end Draft

/-! ## Injection line by line -/

theorem injected_append (margin : List Char) (fresh : Bool) (a b : List Char) :
    injected margin fresh (a ++ b) =
      injected margin fresh a ++ injected margin (a.foldl freshOn fresh) b := by
  induction a generalizing fresh with
  | nil => rfl
  | cons c rest ih => simp [injected, ih]

/-- Nothing comes between the characters of a line that has begun. -/
theorem injected_begun (margin : List Char) {piece : List Char} (h : '\n' ∉ piece) :
    injected margin false piece = piece := by
  induction piece with
  | nil => rfl
  | cons c piece ih =>
    simp only [List.mem_cons, not_or] at h
    have begun : freshOn false c = false := by simp [freshOn, Ne.symm h.1]
    simp [injected, begun, ih h.2]

theorem injected_fresh (l : Layout) {piece : List Char} (h : '\n' ∉ piece) :
    injected l.margin.toList true piece = l.line piece := by
  induction piece with
  | nil => rfl
  | cons c piece ih =>
    simp only [List.mem_cons, not_or] at h
    by_cases ret : c = '\r'
    · have fresh : freshOn true c = true := by simp [freshOn, ret]
      have line : l.line (c :: piece) = c :: l.line piece := by simp [Layout.line, ret]
      rw [line, injected, fresh, ih h.2]
      rfl
    · have begun : freshOn true c = false := by simp [freshOn, ret, Ne.symm h.1]
      have line : l.line (c :: piece) = l.margin.toList ++ c :: piece := by
        simp [Layout.line, ret]
      rw [line, injected, begun, injected_begun _ h.2]
      simp

/-- After a newline a line begins, whatever stood before it. -/
theorem injected_newline (margin : List Char) (fresh : Bool) (piece rest : List Char) :
    injected margin fresh (piece ++ '\n' :: rest) =
      injected margin fresh piece ++ '\n' :: injected margin true rest := by
  rw [injected_append, injected]
  simp [freshOn]

theorem injected_line (l : Layout) {piece : List Char} (h : '\n' ∉ piece) (rest : List Char) :
    injected l.margin.toList true (piece ++ '\n' :: rest) =
      l.line piece ++ '\n' :: injected l.margin.toList true rest := by
  rw [injected_newline, injected_fresh l h]

/-- Pieces are lines once each is closed, the last one too. -/
theorem injected_join (l : Layout) {pieces : List (List Char)} (nonempty : pieces ≠ [])
    (h : ∀ piece ∈ pieces, '\n' ∉ piece) :
    injected l.margin.toList true (Text.join '\n' pieces ++ ['\n']) =
      pieces.flatMap fun piece => l.line piece ++ ['\n'] := by
  induction pieces with
  | nil => exact absurd rfl nonempty
  | cons piece more ih =>
    have here := h piece List.mem_cons_self
    cases more with
    | nil =>
      rw [Text.join, injected_line l here]
      simp [injected]
    | cons next more =>
      have join : Text.join '\n' (piece :: next :: more) ++ ['\n'] =
          piece ++ '\n' :: (Text.join '\n' (next :: more) ++ ['\n']) := by
        simp [Text.join]
      rw [join, injected_line l here,
        ih (List.cons_ne_nil _ _) fun p hp => h p (List.mem_cons_of_mem _ hp)]
      simp

namespace Draft

/-- A draft with more text, at the start of a line. -/
def after (d : Draft) (text : String) (tight : Bool) (nextId : Nat) : Draft :=
  { d with body := d.body ++ text, fresh := true, tight, nextId }

@[simp] theorem after_after (d : Draft) (a b : String) (s t : Bool) (m n : Nat) :
    (d.after a s m).after b t n = d.after (a ++ b) t n := by
  simp [after, String.append_assoc]

/-- Nothing was added. -/
theorem after_nothing {d : Draft} (h : d.fresh = true) : d.after "" d.tight d.nextId = d := by
  simp [after, ← h]

theorem writeLine_fresh {d : Draft} (h : d.fresh = true) (text : String) :
    d.writeLine text = d.after (d.layout.paragraph text) false d.nextId := by
  have line : d.writeLine text = (text.toList ++ ['\n']).foldl push d := by
    simp [writeLine, write]
  have lines : injected d.margin.toList true (text.toList ++ ['\n']) =
      (Text.split '\n' text.toList).flatMap fun piece => d.layout.line piece ++ ['\n'] := by
    have := injected_join d.layout (Text.split_ne_nil '\n' text.toList)
      fun piece => Text.not_mem_of_mem_split
    rwa [Text.join_split, margin_layout] at this
  rw [line, foldl_push_eq, h, lines]
  simp [after, Layout.paragraph, freshOn]

theorem atLevel_writeLine_fresh {d : Draft} (h : d.fresh = true) (level : Nat) (text : String) :
    d.atLevel level (·.writeLine text) =
      d.after ((d.layout.moved level).paragraph text) false d.nextId := by
  have moved : ({ d with level } : Draft).fresh = true := h
  rw [atLevel, writeLine_fresh moved]
  rfl

theorem push_newline_fresh {d : Draft} (h : d.fresh = true) :
    d.push '\n' = d.after "\n" false d.nextId := by
  rw [push_eq, h]
  simp [after, injected, freshOn]

end Draft

end Emitter
