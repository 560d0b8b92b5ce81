import Stencil.Proofs.Nesting

/-!
# Block trees

The statements of a well-nested template as a tree: every block with its body, and with
what stands behind it. A tree spells a word. The words that trees spell are the
well-nested ones, and no two trees spell the same. The lines of a tree compile to its
commands, in which every statement keeps the number of its line, but a block has the
number of its end.

## Main definitions

* `BlockTree`: statements with the bodies of their blocks.
* `BlockTree.word`: the statements in their order.
* `BlockTree.commands`: the commands, with the numbers of their lines.
-/
namespace Stencil

open Command (Fold OpenBlock)
open Nesting (WellNested Reads foldWord)

/-- The statements of a template: nothing, or what stands first and the rest behind it. -/
inductive BlockTree where
  | nil
  | blank (rest : BlockTree)
  | line (content : Line) (rest : BlockTree)
  | block (b : Block) (body rest : BlockTree)

namespace BlockTree

/-- The statements in their order, with the end of every block. -/
def word : BlockTree → List Statement
  | nil => []
  | blank rest => .blank :: rest.word
  | line content rest => .line content :: rest.word
  | block b body rest => .opening b :: (body.word ++ .closing b.kind :: rest.word)

/-- The number of lines. -/
def size : BlockTree → Nat
  | nil => 0
  | blank rest => rest.size + 1
  | line _ rest => rest.size + 1
  | block _ body rest => body.size + rest.size + 2

/-- The commands of a tree whose first line has the number `n`. The line of a block
command is that of its end. -/
def commands : BlockTree → Nat → List Command
  | nil, _ => []
  | blank rest, n => .blank n :: rest.commands (n + 1)
  | line content rest, n => .emit n content :: rest.commands (n + 1)
  | block b body rest, n =>
    Command.ofBlock (n + body.size + 1) (body.commands (n + 1)) b ::
      rest.commands (n + body.size + 2)

variable {tr t u : BlockTree} {v w : List Statement} {lines : List Text}

@[simp] theorem length_word (tr : BlockTree) : tr.word.length = tr.size := by
  induction tr with
  | nil => rfl
  | blank rest ih => simp [word, size, ih]
  | line content rest ih => simp [word, size, ih]
  | block b body rest ihbody ih =>
    simp only [word, size, List.length_cons, List.length_append, ihbody, ih]
    omega

/-! ## Trees and well-nested words -/

theorem wellNested_word (tr : BlockTree) : WellNested tr.word := by
  induction tr with
  | nil => exact .nil
  | blank rest ih => exact .blank ih
  | line content rest ih => exact .line content ih
  | block b body rest ihbody ih => exact .block b ihbody ih

theorem exists_word_eq (h : WellNested w) : ∃ tr : BlockTree, tr.word = w := by
  induction h with
  | nil => exact ⟨nil, rfl⟩
  | blank _ ih =>
    obtain ⟨rest, rfl⟩ := ih
    exact ⟨rest.blank, rfl⟩
  | line content _ ih =>
    obtain ⟨rest, rfl⟩ := ih
    exact ⟨rest.line content, rfl⟩
  | block b _ _ ihbody ih =>
    obtain ⟨body, rfl⟩ := ihbody
    obtain ⟨rest, rfl⟩ := ih
    exact ⟨block b body rest, rfl⟩

/-- Nothing stands in a list of statements, or an end stands first. -/
def EndsHere (v : List Statement) : Prop := ∀ s ∈ v.head?, ∃ kind, s = .closing kind

/-- Only the empty tree spells nothing before an end. -/
theorem eq_nil_of_endsHere (h : EndsHere (t.word ++ v)) : t = nil := by
  cases t with
  | nil => rfl
  | _ =>
    obtain ⟨kind, hkind⟩ := h _ rfl
    cases hkind

/-- Two trees that spell the same up to an end are the same, and so is what follows. -/
theorem eq_of_word_append (h : t.word ++ v = u.word ++ w) (hv : EndsHere v) (hw : EndsHere w) :
    t = u ∧ v = w := by
  induction t generalizing u v w with
  | nil =>
    have hu : EndsHere (u.word ++ w) := h ▸ hv
    obtain rfl := eq_nil_of_endsHere hu
    exact ⟨rfl, h⟩
  | blank rest ih =>
    cases u with
    | nil =>
      have ht : EndsHere (rest.blank.word ++ v) := h ▸ hw
      cases eq_nil_of_endsHere ht
    | blank rest' =>
      obtain ⟨rfl, rfl⟩ := ih (List.cons.inj h).2 hv hw
      exact ⟨rfl, rfl⟩
    | _ => cases (List.cons.inj h).1
  | line content rest ih =>
    cases u with
    | nil =>
      have ht : EndsHere ((rest.line content).word ++ v) := h ▸ hw
      cases eq_nil_of_endsHere ht
    | line content' rest' =>
      obtain ⟨hhead, htail⟩ := List.cons.inj h
      cases hhead
      obtain ⟨rfl, rfl⟩ := ih htail hv hw
      exact ⟨rfl, rfl⟩
    | _ => cases (List.cons.inj h).1
  | block b body rest ihbody ih =>
    cases u with
    | nil =>
      have ht : EndsHere ((block b body rest).word ++ v) := h ▸ hw
      cases eq_nil_of_endsHere ht
    | block b' body' rest' =>
      simp only [word, List.cons_append, List.append_assoc, List.cons.injEq] at h
      obtain ⟨hhead, htail⟩ := h
      cases hhead
      have hend : ∀ x : List Statement, EndsHere (.closing b.kind :: x) := by
        rintro x s hs
        cases hs
        exact ⟨_, rfl⟩
      obtain ⟨rfl, hrest⟩ := ihbody htail (hend _) (hend _)
      obtain ⟨rfl, rfl⟩ := ih (List.cons.inj hrest).2 hv hw
      exact ⟨rfl, rfl⟩
    | _ => cases (List.cons.inj h).1

/-- A word is spelled by one tree. -/
theorem word_injective (h : t.word = u.word) : t = u := by
  have hnil : EndsHere [] := fun _ hs => by cases hs
  exact (eq_of_word_append (congrArg (· ++ []) h) hnil hnil).1

/-! ## Compiling a tree -/

theorem foldl_add_of_open (d : List Command) (o : OpenBlock) (os : List OpenBlock)
    (cs : List Command) :
    cs.foldl Fold.add ⟨d, o :: os⟩ = ⟨d, { o with body := cs.reverse ++ o.body } :: os⟩ := by
  induction cs generalizing o with
  | nil => rfl
  | cons c cs ih => simp [Fold.add, ih]

theorem foldl_add_of_none (d cs : List Command) :
    cs.foldl Fold.add ⟨d, []⟩ = ⟨cs.reverse ++ d, []⟩ := by
  induction cs generalizing d with
  | nil => rfl
  | cons c cs ih => simp [Fold.add, ih]

/-- Folding what a tree spells adds its commands one by one. -/
theorem foldWord_word (tr : BlockTree) (f : Fold) (n : Nat) :
    foldWord f n tr.word = .ok ((tr.commands n).foldl Fold.add f) := by
  induction tr generalizing f n with
  | nil => rfl
  | blank rest ih => exact ih (f.add (.blank n)) (n + 1)
  | line content rest ih => exact ih (f.add (.emit n content)) (n + 1)
  | block b body rest ihbody ih =>
    obtain ⟨d, os⟩ := f
    have hopen : foldWord ⟨d, os⟩ n (block b body rest).word =
        foldWord ⟨d, ⟨b, n, []⟩ :: os⟩ (n + 1) (body.word ++ .closing b.kind :: rest.word) := rfl
    have hnumber : n + 1 + body.size = n + body.size + 1 := by omega
    have hclose : Fold.step ⟨d, ⟨b, n, (body.commands (n + 1)).reverse⟩ :: os⟩
        (n + body.size + 1) (.closing b.kind) =
          .ok (Fold.add ⟨d, os⟩
            (Command.ofBlock (n + body.size + 1) (body.commands (n + 1)) b)) := by
      simp [Fold.step]
    rw [hopen, Nesting.foldWord_append, ihbody, foldl_add_of_open, length_word, hnumber,
      List.append_nil]
    change (Fold.step _ _ _).bind _ = _
    rw [hclose]
    exact ih _ _

/-- The lines of a tree compile to its commands. -/
theorem compile_of_reads (template : Text) (h : Reads lines tr.word) :
    Command.compile template lines = .ok (tr.commands 1) := by
  have hlines : Fold.start.lines template 1 lines = .ok ⟨(tr.commands 1).reverse, []⟩ := by
    refine Nesting.lines_eq_ok_iff.2 ⟨tr.word, h, ?_⟩
    rw [foldWord_word, Fold.start, foldl_add_of_none, List.append_nil]
  refine Steps.bind_eq_ok_iff.2 ⟨_, hlines, ?_⟩
  rw [Fold.finish, List.reverse_reverse]

/-- Lines that compile are those of a tree. -/
theorem exists_reads_of_compile {template : Text} {cs : List Command}
    (h : Command.compile template lines = .ok cs) :
    ∃ tr : BlockTree, Reads lines tr.word ∧ tr.commands 1 = cs := by
  obtain ⟨w, hw, hnested, -⟩ := Nesting.exists_lists_of_compile h
  obtain ⟨tr, rfl⟩ := exists_word_eq hnested
  exact ⟨tr, hw, Except.ok.inj ((compile_of_reads template hw).symm.trans h)⟩

end BlockTree

end Stencil
