import Emitter.Writer.Draft

/-! The level and the prefix of a draft are copies of what its open scopes say. A nesting is sound
when the copies agree, each frame has recorded the state around it, and the numbers grow inwards.
Opening, closing and dropping scopes keep a nesting sound; text does not touch it. -/

namespace Emitter

namespace Frame

def isIndent : Frame → Bool
  | indent .. => true
  | _ => false

def installed? : Frame → Option String
  | linePrefix _ installed _ => some installed
  | _ => none

end Frame

/-- The part of a draft that scopes govern. -/
structure Nesting where
  level : Nat
  linePrefix : Option String
  scopes : List Frame
  nextId : Nat

def Draft.nesting (d : Draft) : Nesting := ⟨d.level, d.linePrefix, d.scopes, d.nextId⟩

namespace Nesting

def indents (scopes : List Frame) : Nat := scopes.countP Frame.isIndent

/-- The prefix of the innermost scope that has one. -/
def innermostPrefix (scopes : List Frame) : Option String := scopes.findSome? Frame.installed?

@[simp] theorem indents_indent (id level : Nat) (closing : Option String) (outer : List Frame) :
    indents (.indent id level closing :: outer) = indents outer + 1 :=
  List.countP_cons_of_pos rfl

@[simp] theorem indents_leftAdjusted (id level : Nat) (closing : String) (outer : List Frame) :
    indents (.leftAdjusted id level closing :: outer) = indents outer :=
  List.countP_cons_of_neg Bool.false_ne_true

@[simp] theorem indents_linePrefix (id : Nat) (installed : String) (previous : Option String)
    (outer : List Frame) : indents (.linePrefix id installed previous :: outer) = indents outer :=
  List.countP_cons_of_neg Bool.false_ne_true

/-- What a frame has recorded is what the scopes outside it say. -/
def Fits (outer : List Frame) : Frame → Prop
  | .indent id level closing => level = indents (.indent id level closing :: outer)
  | .leftAdjusted id level closing => level = indents (.leftAdjusted id level closing :: outer)
  | .linePrefix _ _ previous => previous = innermostPrefix outer

structure Sound (n : Nesting) : Prop where
  level : n.level = indents n.scopes
  linePrefix : n.linePrefix = innermostPrefix n.scopes
  recorded : ∀ frame outer, frame :: outer <:+ n.scopes → Fits outer frame
  ordered : (n.scopes.map (·.token.id)).Pairwise (· > ·)
  bounded : ∀ frame ∈ n.scopes, frame.token.id < n.nextId

/-- The only nesting with these scopes that can be sound. -/
def ofScopes (scopes : List Frame) (nextId : Nat) : Nesting :=
  ⟨indents scopes, innermostPrefix scopes, scopes, nextId⟩

theorem Sound.eq_ofScopes {n : Nesting} (h : n.Sound) : n = ofScopes n.scopes n.nextId := by
  obtain ⟨level, linePrefix, scopes, nextId⟩ := n
  have hl := h.level
  have hp := h.linePrefix
  simp only at hl hp
  rw [hl, hp]
  rfl

theorem sound_start : (ofScopes [] 0).Sound :=
  ⟨rfl, rfl, fun _ _ h => absurd (List.eq_nil_of_suffix_nil h) (List.cons_ne_nil _ _),
    List.Pairwise.nil, fun _ h => absurd h List.not_mem_nil⟩

/-- Going back to some of the outer scopes, to the level and prefix that they had. -/
theorem Sound.ofScopes_of_suffix {n : Nesting} (h : n.Sound) {scopes : List Frame}
    (suffix : scopes <:+ n.scopes) : (ofScopes scopes n.nextId).Sound where
  level := rfl
  linePrefix := rfl
  recorded frame outer inner := h.recorded frame outer (inner.trans suffix)
  ordered := h.ordered.sublist (suffix.sublist.map _)
  bounded frame mem := h.bounded frame (suffix.mem mem)

/-- A new innermost scope, whose frame records the state that it finds. -/
structure Enters (n : Nesting) (frame : Frame) (inside : Nesting) : Prop where
  id : frame.token.id = n.nextId
  level : inside.level = n.level + if frame.isIndent then 1 else 0
  linePrefix : inside.linePrefix = frame.installed?.or n.linePrefix
  scopes : inside.scopes = frame :: n.scopes
  nextId : inside.nextId = n.nextId + 1
  records : match frame with
    | .indent _ level _ => level = n.level + 1
    | .leftAdjusted _ level _ => level = n.level
    | .linePrefix _ _ previous => previous = n.linePrefix

theorem Sound.enters {n inside : Nesting} {frame : Frame} (h : n.Sound)
    (enters : n.Enters frame inside) : inside.Sound := by
  have records := enters.records
  refine ⟨?_, ?_, ?_, ?_, ?_⟩
  · rw [enters.level, enters.scopes, h.level, indents, indents, List.countP_cons]
  · rw [enters.linePrefix, enters.scopes, h.linePrefix, innermostPrefix, innermostPrefix,
      List.findSome?_cons]
    cases frame.installed? <;> rfl
  · intro f outer suffix
    rw [enters.scopes, List.suffix_cons_iff, List.cons.injEq] at suffix
    rcases suffix with ⟨rfl, rfl⟩ | suffix
    · cases f with
      | indent id level closing =>
        rw [Fits, indents_indent, ← h.level]
        exact records
      | leftAdjusted id level closing =>
        rw [Fits, indents_leftAdjusted, ← h.level]
        exact records
      | linePrefix id installed previous =>
        exact records.trans h.linePrefix
    · exact h.recorded f outer suffix
  · rw [enters.scopes, List.map_cons, List.pairwise_cons]
    refine ⟨fun id mem => ?_, h.ordered⟩
    obtain ⟨f, hf, rfl⟩ := List.mem_map.1 mem
    rw [enters.id]
    exact h.bounded f hf
  · intro f mem
    rw [enters.scopes, List.mem_cons] at mem
    rw [enters.nextId]
    rcases mem with rfl | mem
    · exact enters.id ▸ Nat.lt_succ_self _
    · exact Nat.lt_succ_of_lt (h.bounded f mem)

end Nesting

open Nesting

namespace Draft

/-! ## Text -/

@[simp] theorem nesting_push (d : Draft) (c : Char) : (d.push c).nesting = d.nesting := by
  simp [nesting]

@[simp] theorem nesting_write (d : Draft) (text : String) : (d.write text).nesting = d.nesting :=
  write_keeps nesting_push d text

@[simp] theorem nesting_writeLine (d : Draft) (text : String) :
    (d.writeLine text).nesting = d.nesting := by
  simp [writeLine]

/-- The level is put back, whatever it was for one line. -/
@[simp] theorem nesting_atLevel (d : Draft) (level : Nat) (text : String) :
    (d.atLevel level (·.writeLine text)).nesting = d.nesting := by
  simp [atLevel, writeLine, nesting]

@[simp] theorem nesting_noSeparation (d : Draft) : d.noSeparation.nesting = d.nesting := rfl

@[simp] theorem nesting_separate (d : Draft) : d.separate.nesting = d.nesting := by
  unfold separate
  split
  · rfl
  · simp

/-! ## Opening -/

theorem enters_openIndent (d : Draft) (start closing : Option String) :
    d.nesting.Enters (.indent d.nextId (d.level + 1) closing)
      (d.openIndent start closing).nesting := by
  cases start <;> constructor <;> simp [openIndent, enter, nesting, Frame.isIndent, Frame.token,
    Frame.installed?, writeLine]

theorem enters_openLeft (d : Draft) (start closing : String) :
    d.nesting.Enters (.leftAdjusted d.nextId d.level closing)
      (d.openLeft start closing).nesting := by
  constructor <;> simp [openLeft, writeLeftAdjusted, atLevel, writeLine, enter, nesting,
    Frame.isIndent, Frame.token, Frame.installed?]

theorem enters_openPrefix (d : Draft) (linePrefix : String) :
    d.nesting.Enters (.linePrefix d.nextId linePrefix d.linePrefix)
      (d.openPrefix linePrefix).nesting := by
  constructor <;> simp [openPrefix, enter, nesting, Frame.isIndent, Frame.token, Frame.installed?]

/-! ## Closing -/

theorem closable_eq_ok {d : Draft} {token : Token} {frame : Frame}
    (h : d.closable token = .ok frame) :
    ∃ outer, d.scopes = frame :: outer ∧ frame.token.id = token.id := by
  unfold closable at h
  cases scopes : d.scopes with
  | nil => rw [scopes] at h; exact nomatch h
  | cons first outer =>
    rw [scopes] at h
    by_cases same : first.token.id = token.id
    · cases first <;> simp only [same, ne_eq, not_true_eq_false, if_false] at h <;>
        split at h <;> cases h <;> exact ⟨outer, rfl, same⟩
    · simp [same] at h

section Sound

variable {d : Draft} (sound : d.nesting.Sound) {frame : Frame} {outer : List Frame}
  (innermost : d.scopes = frame :: outer)
include sound innermost

theorem fits_innermost : Fits outer frame :=
  sound.recorded frame outer (innermost ▸ List.suffix_refl _)

/-- The state is the one that the innermost scope has recorded, so its number alone decides. -/
theorem closable_innermost {token : Token} (same : frame.token.id = token.id) :
    d.closable token = .ok frame := by
  have level : d.level = indents d.scopes := sound.level
  have linePrefix : d.linePrefix = innermostPrefix d.scopes := sound.linePrefix
  have fits := fits_innermost sound innermost
  rw [innermost] at level linePrefix
  unfold closable
  rw [innermost]
  cases frame with
  | indent id recorded closing =>
    have agrees : d.level = recorded := level.trans fits.symm
    simp [same, agrees]
  | leftAdjusted id recorded closing =>
    have agrees : d.level = recorded := level.trans fits.symm
    simp [same, agrees]
  | linePrefix id installed previous =>
    have agrees : d.linePrefix = some installed := linePrefix
    simp [same, agrees]

/-- Leaving the innermost scope goes back to the state that the next one says. -/
theorem nesting_leave : (d.leave frame).nesting = ofScopes outer d.nextId := by
  have level : d.level = indents d.scopes := sound.level
  have linePrefix : d.linePrefix = innermostPrefix d.scopes := sound.linePrefix
  have fits := fits_innermost sound innermost
  rw [innermost] at level linePrefix
  cases frame with
  | indent id recorded closing =>
    rw [indents_indent] at level
    have left : (d.leave (.indent id recorded closing)).nesting =
        ⟨d.level - 1, d.linePrefix, d.scopes.tail, d.nextId⟩ := rfl
    rw [left, level, linePrefix, innermost]
    rfl
  | leftAdjusted id recorded closing =>
    rw [indents_leftAdjusted] at level
    have left : (d.leave (.leftAdjusted id recorded closing)).nesting =
        ⟨d.level, d.linePrefix, d.scopes.tail, d.nextId⟩ := rfl
    rw [left, level, linePrefix, innermost]
    rfl
  | linePrefix id installed previous =>
    rw [indents_linePrefix] at level
    have left : (d.leave (.linePrefix id installed previous)).nesting =
        ⟨d.level, previous, d.scopes.tail, d.nextId⟩ := rfl
    rw [left, level, innermost, fits]
    rfl

end Sound

/-! ## Dropping -/

/-- Each dropped frame puts back what it recorded, so the level and the prefix follow the frames
that are left. This is where a frame is trusted without a check. -/
theorem nesting_dropInner (id : Nat) {d : Draft} {scopes : List Frame}
    (level : d.level = indents scopes) (linePrefix : d.linePrefix = innermostPrefix scopes)
    (recorded : ∀ frame outer, frame :: outer <:+ scopes → Fits outer frame) :
    (dropInner id d scopes).nesting =
      ofScopes (scopes.dropWhile fun frame => frame.token.id != id) d.nextId := by
  induction scopes generalizing d with
  | nil =>
    rw [dropInner, nesting, level, linePrefix]
    rfl
  | cons frame outer ih =>
    have fits := recorded frame outer (List.suffix_refl _)
    by_cases same : frame.token.id = id
    · rw [dropInner, if_pos same, nesting, level, linePrefix,
        List.dropWhile_cons_of_neg (by simp [same])]
      rfl
    · have restored : (d.restore frame).level = indents outer ∧
          (d.restore frame).linePrefix = innermostPrefix outer ∧
          (d.restore frame).nextId = d.nextId := by
        cases frame with
        | indent id recorded closing =>
          rw [Fits, indents_indent] at fits
          exact ⟨by rw [restore, fits]; rfl, linePrefix, rfl⟩
        | leftAdjusted id recorded closing =>
          rw [Fits, indents_leftAdjusted] at fits
          exact ⟨fits, linePrefix, rfl⟩
        | linePrefix id installed previous =>
          rw [indents_linePrefix] at level
          exact ⟨level, fits, rfl⟩
      rw [dropInner, if_neg same, List.dropWhile_cons_of_pos (by simp [same]),
        ih restored.1 restored.2.1 fun f o h => recorded f o (h.trans (List.suffix_cons _ _)),
        restored.2.2]

end Draft

namespace Nesting

/-- The scopes that are left when those inside a number are dropped, if it is there. -/
def unwound (id : Nat) (scopes : List Frame) : List Frame :=
  if scopes.any (·.token.id == id) then scopes.dropWhile fun frame => frame.token.id != id
  else scopes

/-- The scopes that are left when a number is closed, if it is the innermost. -/
def closed (id : Nat) : List Frame → List Frame
  | [] => []
  | frame :: outer => if frame.token.id = id then outer else frame :: outer

theorem unwound_suffix (id : Nat) (scopes : List Frame) : unwound id scopes <:+ scopes := by
  unfold unwound
  split
  · exact List.dropWhile_suffix _
  · exact List.suffix_refl _

theorem closed_suffix (id : Nat) (scopes : List Frame) : closed id scopes <:+ scopes := by
  unfold closed
  split
  · exact List.suffix_refl _
  · split
    · exact List.suffix_cons _ _
    · exact List.suffix_refl _

end Nesting

namespace Draft

theorem nesting_unwindTo {d : Draft} (sound : d.nesting.Sound) (token : Token) :
    (d.unwindTo token).nesting = ofScopes (unwound token.id d.scopes) d.nextId := by
  unfold unwindTo unwound
  split
  · exact nesting_dropInner token.id sound.level sound.linePrefix sound.recorded
  · exact sound.eq_ofScopes

/-- What a sound nesting is good for: where one is taken from a level, the level is positive, and
the innermost scope can be closed. -/
structure Consistent (d : Draft) : Prop where
  sound : d.nesting.Sound
  recorded_pos : ∀ id level closing, .indent id level closing ∈ d.scopes → 0 < level
  level_pos : ∀ token id level closing,
    d.closable token = .ok (.indent id level closing) → 0 < d.level
  closable : ∀ frame outer token, d.scopes = frame :: outer → frame.token.id = token.id →
    d.closable token = .ok frame

theorem consistent_of_sound {d : Draft} (sound : d.nesting.Sound) : d.Consistent where
  sound := sound
  recorded_pos id level closing mem := by
    obtain ⟨inner, outer, scopes⟩ := List.append_of_mem mem
    have suffix : .indent id level closing :: outer <:+ d.scopes := ⟨inner, scopes.symm⟩
    have fits : level = indents (.indent id level closing :: outer) :=
      sound.recorded _ outer suffix
    rw [indents_indent] at fits
    omega
  level_pos token id level closing h := by
    obtain ⟨outer, innermost, -⟩ := closable_eq_ok h
    have counted : d.level = indents d.scopes := sound.level
    rw [innermost, indents_indent] at counted
    omega
  closable _ _ _ innermost same := closable_innermost sound innermost same

end Draft

end Emitter
