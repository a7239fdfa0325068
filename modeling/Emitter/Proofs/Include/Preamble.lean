import Emitter.Proofs.Include.Order
import Emitter.Proofs.Path.Canonical
import Emitter.Proofs.Path.Relative
import Emitter.Script.Bench
import Mathlib.Data.List.Nodup

/-! The preamble of a header file says which files were included and nothing more. As normal forms
are canonical, a set holds each of its paths once, however it was written, and as the lines stand in
the one increasing order that they have, neither the order of the calls nor their number matters. -/

namespace Emitter

namespace Path

/-- In normal form, so that no other text in normal form names the same place. -/
def IsNormalized (p : Path) : Prop := ∃ q : Path, p = q.normalize

theorem isNormalized_absolutize (base p : Path) : (absolutize base p).IsNormalized := by
  unfold absolutize
  split
  · exact ⟨p, rfl⟩
  · exact ⟨base.join p, rfl⟩

theorem IsNormalized.same_iff {p q : Path} (hp : p.IsNormalized) (hq : q.IsNormalized) :
    p.same q ↔ p = q := by
  obtain ⟨p, rfl⟩ := hp
  obtain ⟨q, rfl⟩ := hq
  exact same_normalize

end Path

/-! ## Sets -/

namespace IncludeSet

def IsNormalized (set : IncludeSet) : Prop := ∀ p ∈ set.paths, p.IsNormalized

variable {set : IncludeSet}

theorem order_insert (set : IncludeSet) (p : Path) : (set.insert p).order = set.order := by
  unfold insert
  split <;> rfl

theorem mem_insert (normalized : set.IsNormalized) {p : Path} (hp : p.IsNormalized) (q : Path) :
    q ∈ (set.insert p).paths ↔ q ∈ set.paths ∨ q = p := by
  unfold insert
  split
  · next known =>
    obtain ⟨p', old, same⟩ := List.any_eq_true.1 known
    obtain rfl := (hp.same_iff (normalized p' old)).1 same
    exact ⟨.inl, fun h => h.elim id fun here => here ▸ old⟩
  · rw [List.mem_append, List.mem_singleton]

theorem IsNormalized.insert (normalized : set.IsNormalized) {p : Path} (hp : p.IsNormalized) :
    (set.insert p).IsNormalized := by
  intro q mem
  rcases (mem_insert normalized hp q).1 mem with old | rfl
  · exact normalized q old
  · exact hp

/-- Adds paths in order. -/
def insertAll (set : IncludeSet) (paths : List Path) : IncludeSet := paths.foldl insert set

theorem order_insertAll (set : IncludeSet) (paths : List Path) :
    (set.insertAll paths).order = set.order := by
  induction paths generalizing set with
  | nil => rfl
  | cons p rest ih => exact (ih _).trans (order_insert set p)

theorem mem_insertAll (normalized : set.IsNormalized) {paths : List Path}
    (h : ∀ p ∈ paths, p.IsNormalized) (q : Path) :
    q ∈ (set.insertAll paths).paths ↔ q ∈ set.paths ∨ q ∈ paths := by
  induction paths generalizing set with
  | nil => simp [insertAll]
  | cons p rest ih =>
    rw [List.forall_mem_cons] at h
    have later : q ∈ (set.insertAll (p :: rest)).paths ↔ q ∈ (set.insert p).paths ∨ q ∈ rest :=
      ih (normalized.insert h.1) h.2
    rw [later, mem_insert normalized h.1, List.mem_cons, or_assoc]

end IncludeSet

/-! ## Calls -/

namespace Includes

/-- A call that adds an include, to either block. -/
inductive Call where
  | quoted (path : String)
  | system (path : String)

namespace Call

def command : Call → Script.Command
  | quoted path => .addQuoted path
  | system path => .addSystem path

/-- What the call adds to the includes. -/
def add (working : Path) (i : Includes) : Call → Includes
  | quoted path => i.addQuoted working path
  | system path => i.addSystem path

def quoted? : Call → Option String
  | quoted path => some path
  | system _ => none

def system? : Call → Option String
  | quoted _ => none
  | system path => some path

end Call

def addAll (working : Path) (i : Includes) (calls : List Call) : Includes :=
  calls.foldl (Call.add working) i

/-- The files that calls name, in order, seen from a base. -/
def quotedPaths (base : Path) (calls : List Call) : List Path :=
  (calls.filterMap Call.quoted?).map fun path => Path.absolutize base (.ofPortable path)

/-- What calls name on the compiler's search path, in order. -/
def systemPaths (calls : List Call) : List Path :=
  (calls.filterMap Call.system?).map fun path => (Path.ofPortable path).normalize

theorem addAll_eq (working : Path) (i : Includes) (calls : List Call) :
    addAll working i calls =
      { i with
        quoted := i.quoted.insertAll (quotedPaths (i.base.getD working) calls)
        system := i.system.insertAll (systemPaths calls) } := by
  induction calls generalizing i with
  | nil => rfl
  | cons call rest ih =>
    have step : addAll working i (call :: rest) = addAll working (call.add working i) rest := rfl
    rw [step, ih]
    cases call <;> rfl

theorem isNormalized_quotedPaths (base : Path) (calls : List Call) :
    ∀ p ∈ quotedPaths base calls, p.IsNormalized := by
  intro p mem
  obtain ⟨path, -, rfl⟩ := List.mem_map.1 mem
  exact Path.isNormalized_absolutize _ _

theorem isNormalized_systemPaths (calls : List Call) :
    ∀ p ∈ systemPaths calls, p.IsNormalized := by
  intro p mem
  obtain ⟨path, -, rfl⟩ := List.mem_map.1 mem
  exact ⟨_, rfl⟩

end Includes

/-! ## Rendering -/

/-- The text of one block: a line for each include, and an empty line after the last. -/
theorem Includes.block_eq (texts texts' : List String) :
    block "\"" "\"" texts ++ block "<" ">" texts' =
      String.join (texts.map fun t => "#include \"" ++ t ++ "\"\n") ++
        (if texts = [] then "" else "\n") ++
      (String.join (texts'.map fun t => "#include <" ++ t ++ ">\n") ++
        if texts' = [] then "" else "\n") := by
  have line (before after t : String) :
      "#include " ++ before ++ t ++ after ++ "\n" =
        ("#include " ++ before) ++ t ++ (after ++ "\n") := by
    simp only [String.append_assoc]
  have join (before after : String) (texts : List String) : block before after texts =
      String.join (texts.map fun t => ("#include " ++ before) ++ t ++ (after ++ "\n")) ++
        if texts = [] then "" else "\n" := by
    simp only [block, line, List.isEmpty_iff]
  rw [join, join]
  rfl

/-- A line, read against the directory, is the file that it stands for. -/
theorem IncludeSet.absolutize_line {directory x : Path} (absolute : directory.isAbsolute = true)
    (slashed : x.Slashed) : Path.absolutize directory ⟨line directory x⟩ = x := by
  rw [line, if_pos slashed.1.isAbsolute, slashed.absolutize_toPortable absolute]

/-- The lines of a set that was empty before: those of the paths that were added, increasing. -/
theorem IncludeSet.render_insertAll {order : IncludeOrder} (total : order.IsTotal) {paths : List Path}
    (h : ∀ p ∈ paths, p.IsNormalized) (directory : Path) :
    order.Increasing (({ order } : IncludeSet).insertAll paths |>.render directory) ∧
      ∀ text, text ∈ (({ order } : IncludeSet).insertAll paths).render directory ↔
        ∃ p ∈ paths, line directory p = text := by
  have empty : ({ order } : IncludeSet).IsNormalized := nofun
  have kept : (({ order } : IncludeSet).insertAll paths).order = order := order_insertAll _ _
  constructor
  · have increasing := @increasing_render (({ order } : IncludeSet).insertAll paths) directory
    rw [kept] at increasing
    exact increasing total
  · intro text
    rw [mem_render]
    refine exists_congr fun p => and_congr_left fun _ => ?_
    rw [mem_insertAll empty h]
    exact or_iff_right List.not_mem_nil

namespace Script.Bench

open Includes

/-- A call that adds an include is accepted and changes nothing but the includes. -/
theorem perform_include {b : Bench} (known : b.handle.byKind = false) {i : Includes}
    (cpp : b.writer.dialect = .cpp i) (call : Call) :
    b.perform call.command = (.done, b.withDialect (.cpp (call.add b.disk.working i))) := by
  unfold Bench.perform
  rw [known, if_neg Bool.false_ne_true]
  cases call <;> simp only [Call.command, performKnown, withIncludes, cpp] <;> rfl

theorem runAll_includes {b : Bench} (known : b.handle.byKind = false) {i : Includes}
    (cpp : b.writer.dialect = .cpp i) (propagates : Bool) (calls : List Call) :
    (∀ entry ∈ (b.runAll (calls.map (.call propagates ·.command))).1, entry.reply = .done) ∧
      (b.runAll (calls.map (.call propagates ·.command))).2.2.writer =
        { b.writer with dialect := .cpp (addAll b.disk.working i calls) } := by
  induction calls generalizing b i with
  | nil =>
    rw [List.map_nil, runAll, addAll, List.foldl_nil, ← cpp]
    exact ⟨List.forall_mem_nil _, rfl⟩
  | cons call rest ih =>
    have fails : isFail call.command = false := by cases call <;> rfl
    have first : b.run (.call propagates call.command) =
        ([⟨.inl call.command, .done, (b.withDialect (.cpp (call.add b.disk.working i))).status⟩],
          none, (b.withDialect (.cpp (call.add b.disk.working i))).marked) := by
      rw [run, perform_include known cpp call, fails]
      cases propagates <;> rfl
    rw [List.map_cons, runAll, first]
    obtain ⟨replies, writer⟩ :=
      @ih (b.withDialect (.cpp (call.add b.disk.working i))).marked known _ rfl
    exact ⟨List.forall_mem_cons.2 ⟨rfl, replies⟩, writer⟩

/-- The preamble of a header file after any calls that add includes is an `#include` line for each
text in quotes and an empty line if there are any, and then the same in brackets. The texts come in
strictly increasing order. Each is that of a path that some call names, and each such path has its
text there once; if all is absolute and has no backslash, that text is the one that leads to the
path from the directory of the file. Calls that name the same files, and the same on the search path,
make the same preamble, in whatever order they come, how often they are repeated and how they spell
the paths. -/
theorem preamble_of_includes {b : Bench} (known : b.handle.byKind = false) {order : IncludeOrder}
    (fixed : order = .ordinal ∨ order = .caseInsensitive) {base : Option Path}
    (cpp : b.writer.dialect = .cpp { Includes.withOrder order with base }) (propagates : Bool) :
    let directory := b.writer.directory
    let place := base.getD b.disk.working
    let ran (calls : List Call) := b.runAll (calls.map (.call propagates ·.command))
    let preamble (calls : List Call) :=
      (ran calls).2.2.writer.dialect.preamble (ran calls).2.2.writer.directory
    let text (p : Path) :=
      if p.isAbsolute then (Path.relative directory p).toPortable else p.toPortable
    (∀ calls, (∀ entry ∈ (ran calls).1, entry.reply = .done) ∧ ∃ inQuotes inBrackets,
      preamble calls =
        String.join (inQuotes.map fun t => "#include \"" ++ t ++ "\"\n") ++
          (if inQuotes = [] then "" else "\n") ++
        (String.join (inBrackets.map fun t => "#include <" ++ t ++ ">\n") ++
          if inBrackets = [] then "" else "\n") ∧
      order.Increasing inQuotes ∧ order.Increasing inBrackets ∧
      (∀ t, t ∈ inQuotes ↔ ∃ p ∈ quotedPaths place calls, text p = t) ∧
      (∀ t, t ∈ inBrackets ↔ ∃ p ∈ systemPaths calls, text p = t) ∧
      (∀ p ∈ quotedPaths place calls, inQuotes.count (text p) = 1) ∧
      (∀ p ∈ systemPaths calls, inBrackets.count (text p) = 1) ∧
      (directory.isAbsolute = true → place.isAbsolute = true → '\\' ∉ place.text.toList →
        ∀ p ∈ quotedPaths place calls,
          ∃! t, t ∈ inQuotes ∧ Path.absolutize directory ⟨t⟩ = p)) ∧
    ∀ calls calls', (∀ p, p ∈ quotedPaths place calls ↔ p ∈ quotedPaths place calls') →
      (∀ p, p ∈ systemPaths calls ↔ p ∈ systemPaths calls') → preamble calls = preamble calls' := by
  intro directory place ran preamble text
  have total : order.IsTotal := by
    rcases fixed with rfl | rfl
    · exact IncludeOrder.isTotal_ordinal
    · exact IncludeOrder.isTotal_caseInsensitive
  have rendered (calls : List Call) : preamble calls =
      block "\"" "\"" ((({ order } : IncludeSet).insertAll (quotedPaths place calls)).render
        directory) ++
      block "<" ">" ((({ order } : IncludeSet).insertAll (systemPaths calls)).render directory) := by
    have writer := (runAll_includes known cpp propagates calls).2
    simp only [preamble, ran]
    rw [writer, addAll_eq]
    rfl
  have inQuotes (calls : List Call) := IncludeSet.render_insertAll total
    (isNormalized_quotedPaths place calls) directory
  have inBrackets (calls : List Call) := IncludeSet.render_insertAll total
    (isNormalized_systemPaths calls) directory
  have once {paths : List Path} {texts : List String} (increasing : order.Increasing texts)
      (mem : ∀ t, t ∈ texts ↔ ∃ p ∈ paths, text p = t) :
      ∀ p ∈ paths, texts.count (text p) = 1 := fun p here =>
    List.count_eq_one_of_mem (increasing.nodup total) ((mem _).2 ⟨p, here, rfl⟩)
  refine ⟨fun calls => ⟨(runAll_includes known cpp propagates calls).1, _, _,
    (rendered calls).trans (block_eq _ _), (inQuotes calls).1, (inBrackets calls).1,
    (inQuotes calls).2, (inBrackets calls).2, once (inQuotes calls).1 (inQuotes calls).2,
    once (inBrackets calls).1 (inBrackets calls).2, fun absolute here slashes p mem => ?_⟩, ?_⟩
  · have leads : ∀ q ∈ quotedPaths place calls, Path.absolutize directory ⟨text q⟩ = q := by
      intro q mem
      obtain ⟨path, -, rfl⟩ := List.mem_map.1 mem
      exact IncludeSet.absolutize_line absolute (Path.slashed_absolutize here slashes path)
    refine ⟨text p, ⟨((inQuotes calls).2 _).2 ⟨p, mem, rfl⟩, leads p mem⟩, ?_⟩
    rintro _ ⟨listed, same⟩
    obtain ⟨q, mem', rfl⟩ := ((inQuotes calls).2 _).1 listed
    have same : q = p := (leads q mem').symm.trans same
    rw [same]
    rfl
  intro calls calls' sameQuoted sameSystem
  rw [rendered, rendered]
  congr 2
  · refine (inQuotes calls).1.eq_of_mem_iff total (inQuotes calls').1 fun text => ?_
    rw [(inQuotes calls).2, (inQuotes calls').2]
    exact exists_congr fun p => and_congr_left fun _ => sameQuoted p
  · refine (inBrackets calls).1.eq_of_mem_iff total (inBrackets calls').1 fun text => ?_
    rw [(inBrackets calls).2, (inBrackets calls').2]
    exact exists_congr fun p => and_congr_left fun _ => sameSystem p

/-- Two generators include the same files, one of them twice. -/
theorem preamble_of_includes_spellings :
    let w : Writer := {
      dialect := .cpp (.withOrder .caseInsensitive), output := ⟨⟨"a.h"⟩, some 0⟩
      directory := ⟨"/src"⟩, settings := {}, draft := { unit := .spaces 4 }, finished := false }
    let b : Bench := ⟨⟨w, false, 0⟩, ⟨⟨"/src"⟩, [(["src", "a.h"], .file 0)], [[]], [0]⟩, []⟩
    let calls : List Call := [.quoted "x/../b.h", .system "vector", .quoted "A.h", .quoted "b.h"]
    let calls' : List Call := [.quoted "/src\\A.h", .system "./vector", .quoted "./b.h"]
    let preamble (calls : List Call) :=
      (b.runAll (calls.map (.call true ·.command))).2.2.writer.dialect.preamble
        (b.runAll (calls.map (.call true ·.command))).2.2.writer.directory
    (b.handle.byKind = false ∧
      b.writer.dialect = .cpp { Includes.withOrder .caseInsensitive with base := none }) ∧
      quotedPaths ⟨"/src"⟩ calls = [⟨"/src/b.h"⟩, ⟨"/src/A.h"⟩, ⟨"/src/b.h"⟩] ∧
      quotedPaths ⟨"/src"⟩ calls' = [⟨"/src/A.h"⟩, ⟨"/src/b.h"⟩] ∧
      systemPaths calls = [⟨"vector"⟩] ∧ systemPaths calls' = [⟨"vector"⟩] ∧
      preamble calls = "#include \"A.h\"\n#include \"b.h\"\n\n#include <vector>\n\n" ∧
      preamble calls' = preamble calls := by
  intro w b calls calls' preamble
  have first : quotedPaths ⟨"/src"⟩ calls = [⟨"/src/b.h"⟩, ⟨"/src/A.h"⟩, ⟨"/src/b.h"⟩] := by decide
  have second : quotedPaths ⟨"/src"⟩ calls' = [⟨"/src/A.h"⟩, ⟨"/src/b.h"⟩] := by decide
  have system : systemPaths calls = [⟨"vector"⟩] := by decide
  have system' : systemPaths calls' = [⟨"vector"⟩] := by decide
  have same : ∀ p, p ∈ quotedPaths ⟨"/src"⟩ calls' ↔ p ∈ quotedPaths ⟨"/src"⟩ calls := by
    intro p
    rw [first, second]
    simp only [List.mem_cons, List.not_mem_nil, or_false]
    tauto
  have sameSystem : ∀ p, p ∈ systemPaths calls' ↔ p ∈ systemPaths calls := by
    intro p
    rw [system, system']
  have known : b.handle.byKind = false := rfl
  have cpp : b.writer.dialect = .cpp { Includes.withOrder .caseInsensitive with base := none } := rfl
  have total := IncludeOrder.isTotal_caseInsensitive
  obtain ⟨every, preambles⟩ := preamble_of_includes known (.inr rfl) cpp true
  obtain ⟨-, inQuotes, inBrackets, literal, increasing, increasing', mem, mem', -⟩ := every calls
  let text (p : Path) :=
    if p.isAbsolute then (Path.relative ⟨"/src"⟩ p).toPortable else p.toPortable
  have texts : text ⟨"/src/A.h"⟩ = "A.h" ∧ text ⟨"/src/b.h"⟩ = "b.h" ∧
      text ⟨"vector"⟩ = "vector" := by decide
  have quotes : inQuotes = ["A.h", "b.h"] := by
    refine increasing.eq_of_mem_iff total ?_ fun t => (mem t).trans ?_
    · have before : IncludeOrder.caseInsensitive.Before "A.h" "b.h" := .inl (by decide)
      simpa [IncludeOrder.Increasing] using before
    · show (∃ p ∈ quotedPaths ⟨"/src"⟩ calls, text p = t) ↔ t ∈ ["A.h", "b.h"]
      rw [first]
      simp only [List.mem_cons, List.not_mem_nil, or_false, or_and_right, exists_or,
        exists_eq_left, texts]
      tauto
  have brackets : inBrackets = ["vector"] := by
    refine increasing'.eq_of_mem_iff total (List.pairwise_singleton _ _) fun t => (mem' t).trans ?_
    show (∃ p ∈ systemPaths calls, text p = t) ↔ t ∈ ["vector"]
    rw [system]
    simp only [List.mem_singleton, exists_eq_left, texts]
    exact eq_comm
  rw [quotes, brackets] at literal
  exact ⟨⟨known, cpp⟩, first, second, system, system', literal.trans (by decide),
    preambles calls' calls same sameSystem⟩

end Script.Bench

end Emitter
