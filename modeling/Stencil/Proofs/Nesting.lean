import Stencil.Command
import Stencil.Proofs.Reading

/-!
# Nesting of blocks

The statements of a template are a word of brackets with other statements between
them. Folding its lines succeeds exactly on the well-nested words, and then the
commands, read depth first, are the lines in their order. On any other word the
fold stops at the first line that cannot stand where it stands, or at the opening
line of the innermost block that is still open at the end.

## Main definitions

* `Nesting.WellNested`: the words in which every block is closed by its own end.
* `Nesting.Leaves`: the words that leave blocks open, and which ones.
* `Nesting.FaultAt`: what is wrong with a line, given the lines before it.
* `Nesting.entries`: commands read depth first.
-/
namespace Stencil.Nesting

open Command (OpenBlock Fold)

/-! ## Nesting without a stack -/

/-- Words in which every end closes a block of its kind and no block stays open. -/
inductive WellNested : List Statement → Prop
  | nil : WellNested []
  | blank {w : List Statement} : WellNested w → WellNested (.blank :: w)
  | line (content : Line) {w : List Statement} : WellNested w → WellNested (.line content :: w)
  | block (b : Block) {body w : List Statement} : WellNested body → WellNested w →
      WellNested (.opening b :: (body ++ .closing b.kind :: w))

/-- The blocks that a word leaves open, the innermost first, each with the number
of the line that opened it. Between two of them stands a well-nested word. -/
inductive Leaves : List Statement → List (Nat × Block) → Prop
  | nested {w : List Statement} : WellNested w → Leaves w []
  | inside (b : Block) {w body : List Statement} {outer : List (Nat × Block)} :
      Leaves w outer → WellNested body →
        Leaves (w ++ .opening b :: body) ((w.length + 1, b) :: outer)

/-- The statements that lines make, when all of them can be read. -/
def Reads (lines : List Text) (word : List Statement) : Prop :=
  lines.map Statement.parse = word.map .ok

/-- What is wrong with the line at an index: it cannot be read, or it closes
nothing, or it closes a block of the other kind. -/
inductive FaultAt (lines : List Text) (i : Nat) : Error → Prop
  | unread {line : Text} {e : Error} : lines[i]? = some line → Statement.parse line = .error e →
      FaultAt lines i e
  | nothingOpen {line : Text} {kind : BlockKind} {before : List Statement} :
      lines[i]? = some line → Statement.parse line = .ok (.closing kind) →
        Reads (lines.take i) before → Leaves before [] →
          FaultAt lines i (.unbalanced (.nothingOpen kind))
  | wrongKind {line : Text} {kind : BlockKind} {before : List Statement} {n : Nat} {b : Block}
      {outer : List (Nat × Block)} :
      lines[i]? = some line → Statement.parse line = .ok (.closing kind) →
        Reads (lines.take i) before → Leaves before ((n, b) :: outer) → b.kind ≠ kind →
          FaultAt lines i (.unbalanced (.wrongKind kind b.kind n))

/-! ## Commands read depth first -/

/-- A statement as it is met in a tree of commands: the line number that its command
carries, and the blocks around it, the innermost first. The command of a block is
met at its end; its opening carries no number. -/
structure Entry where
  number : Option Nat
  inside : List Block
  statement : Statement

mutual

/-- A command read depth first: the opening of a block, its body, its end. -/
def entriesOf (inside : List Block) : Command → List Entry
  | .blank n => [⟨some n, inside, .blank⟩]
  | .emit n content => [⟨some n, inside, .line content⟩]
  | .forEach n body =>
    ⟨none, inside, .opening .forEach⟩ ::
      (entries (.forEach :: inside) body ++ [⟨some n, .forEach :: inside, .closing .forEach⟩])
  | .cond n name negate body =>
    ⟨none, inside, .opening (.cond name negate)⟩ ::
      (entries (.cond name negate :: inside) body ++
        [⟨some n, .cond name negate :: inside, .closing .cond⟩])

/-- Commands read depth first, one after the other. -/
def entries (inside : List Block) : List Command → List Entry
  | [] => []
  | command :: commands => entriesOf inside command ++ entries inside commands

end

/-- The number that a statement on a line carries into the tree. -/
def numberOf (n : Nat) : Statement → Option Nat
  | .opening _ => none
  | _ => some n

/-- Entries list a word: statement by statement, each at its own line and inside the
blocks that are open there. -/
structure Lists (word : List Statement) (es : List Entry) : Prop where
  statements : es.map Entry.statement = word
  entry : ∀ i e, es[i]? = some e → e.number = numberOf (i + 1) e.statement ∧
    ∃ outer, Leaves (word.take i) outer ∧ e.inside = outer.map Prod.snd

variable {w v : List Statement} {outer : List (Nat × Block)} {lines : List Text} {f g : Fold}
  {template : Text} {e : Error} {n i : Nat}

/-! ## Nested words next to each other -/

theorem WellNested.append (hw : WellNested w) (hv : WellNested v) : WellNested (w ++ v) := by
  induction hw with
  | nil => exact hv
  | blank _ ih => exact .blank ih
  | line content _ ih => exact .line content ih
  | @block b body w hbody _ _ ih =>
    rw [List.cons_append, List.append_assoc, List.cons_append]
    exact .block b hbody ih

/-- A well-nested word opens nothing and closes nothing of what stands before it. -/
theorem Leaves.append (hw : Leaves w outer) (hv : WellNested v) : Leaves (w ++ v) outer := by
  cases hw with
  | nested hw => exact .nested (hw.append hv)
  | inside b hw hbody =>
    rw [List.append_assoc, List.cons_append]
    exact .inside b hw (hbody.append hv)

/-- The end of the innermost open block closes it. -/
theorem Leaves.close {b : Block} (h : Leaves w ((n, b) :: outer)) :
    Leaves (w ++ [.closing b.kind]) outer := by
  cases h with
  | @inside _ w body _ hw hbody =>
    have hblock : WellNested (.opening b :: (body ++ [.closing b.kind])) := .block b hbody .nil
    have happend := hw.append hblock
    simpa using happend

/-! ## The fold of a word -/

/-- Folds the statements of a word, the first of which stands on line `n`. -/
def foldWord (f : Fold) (n : Nat) : List Statement → Except Error Fold
  | [] => .ok f
  | s :: w => do
    let f ← f.step n s
    foldWord f (n + 1) w

/-- The open blocks of a fold, each with the number of the line that opened it. -/
def opened (f : Fold) : List (Nat × Block) := f.stack.map fun o => (o.line, o.block)

@[simp] theorem opened_add (f : Fold) (command : Command) : opened (f.add command) = opened f := by
  rw [Fold.add]
  cases h : f.stack <;> simp [opened, h]

theorem foldWord_append (f : Fold) (n : Nat) (w v : List Statement) :
    foldWord f n (w ++ v) = (do
      let f ← foldWord f n w
      foldWord f (n + w.length) v) := by
  induction w generalizing f n with
  | nil => rfl
  | cons s w ih => simp [foldWord, ih, bind_assoc, Nat.add_assoc, Nat.add_comm 1]

/-- An end is accepted exactly when it closes the innermost open block. -/
theorem step_closing_eq_ok_iff {kind : BlockKind} :
    (∃ g, f.step n (.closing kind) = .ok g) ↔
      ∃ m b outer, opened f = (m, b) :: outer ∧ b.kind = kind := by
  cases h : f.stack with
  | nil => simp [Fold.step, opened, h]
  | cons o os =>
    by_cases hkind : o.block.kind = kind
    · simp [Fold.step, opened, h, hkind]
    · simp [Fold.step, opened, h, hkind]

theorem opened_of_step_closing {kind : BlockKind} {m : Nat} {b : Block}
    (hf : opened f = (m, b) :: outer) (hg : f.step n (.closing kind) = .ok g) :
    opened g = outer := by
  cases h : f.stack with
  | nil => simp [opened, h] at hf
  | cons o os =>
    simp only [Fold.step, h] at hg
    split at hg
    · cases hg
      rw [opened_add]
      rw [opened, h] at hf
      exact (List.cons.inj hf).2
    · cases hg

/-- A well-nested word is folded from any state, and opens and closes only blocks of
its own. -/
theorem WellNested.exists_foldWord (hw : WellNested w) (f : Fold) (n : Nat) :
    ∃ g, foldWord f n w = .ok g ∧ opened g = opened f := by
  induction hw generalizing f n with
  | nil => exact ⟨f, rfl, rfl⟩
  | blank _ ih =>
    obtain ⟨g, hg, ho⟩ := ih (f.add (.blank n)) (n + 1)
    exact ⟨g, hg, by simpa using ho⟩
  | line content _ ih =>
    obtain ⟨g, hg, ho⟩ := ih (f.add (.emit n content)) (n + 1)
    exact ⟨g, hg, by simpa using ho⟩
  | @block b body w _ _ ihbody ih =>
    let f' : Fold := { f with stack := ⟨b, n, []⟩ :: f.stack }
    obtain ⟨g, hg, ho⟩ := ihbody f' (n + 1)
    have ho' : opened g = (n, b) :: opened f := ho
    obtain ⟨k, hk⟩ := (step_closing_eq_ok_iff (n := n + 1 + body.length)).2 ⟨n, b, _, ho', rfl⟩
    obtain ⟨l, hl, hol⟩ := ih k (n + 1 + body.length + 1)
    refine ⟨l, ?_, hol.trans (opened_of_step_closing ho' hk)⟩
    change foldWord f' (n + 1) (body ++ .closing b.kind :: w) = .ok l
    rw [foldWord_append, hg]
    change foldWord g _ (.closing b.kind :: w) = .ok l
    rw [foldWord, hk]
    exact hl

/-- A word that leaves blocks open is folded to a state in which they are open. -/
theorem Leaves.exists_foldWord (hw : Leaves w outer) :
    ∃ g, foldWord .start 1 w = .ok g ∧ opened g = outer := by
  induction hw with
  | nested hw => exact hw.exists_foldWord .start 1
  | @inside b w body outer _ hbody ih =>
    obtain ⟨g, hg, ho⟩ := ih
    let g' : Fold := { g with stack := ⟨b, 1 + w.length, []⟩ :: g.stack }
    obtain ⟨k, hk, hok⟩ := hbody.exists_foldWord g' (1 + w.length + 1)
    refine ⟨k, ?_, ?_⟩
    · rw [foldWord_append, hg]
      exact hk
    · rw [hok, Nat.add_comm w.length, ← ho]
      rfl

/-- A word leaves the same blocks open however it is taken apart. -/
theorem Leaves.unique {a b : List (Nat × Block)} (ha : Leaves w a) (hb : Leaves w b) : a = b := by
  obtain ⟨f, hf, rfl⟩ := ha.exists_foldWord
  obtain ⟨g, hg, rfl⟩ := hb.exists_foldWord
  rw [hf] at hg
  rw [Except.ok.inj hg]

/-! ## What is folded lists what was read -/

/-- The entries of the open blocks: each opening, and the body so far behind it. -/
def openEntries : List OpenBlock → List Entry
  | [] => []
  | o :: os =>
    let around := os.map OpenBlock.block
    openEntries os ++
      ⟨none, around, .opening o.block⟩ :: entries (o.block :: around) o.body.reverse

/-- All entries of a fold. -/
def foldEntries (f : Fold) : List Entry := entries [] f.done.reverse ++ openEntries f.stack

theorem entries_append (inside : List Block) (a b : List Command) :
    entries inside (a ++ b) = entries inside a ++ entries inside b := by
  induction a with
  | nil => rfl
  | cons c a ih => simp [entries, ih]

theorem entriesOf_ofBlock (inside : List Block) (n : Nat) (body : List Command) (b : Block) :
    entriesOf inside (Command.ofBlock n body b) =
      ⟨none, inside, .opening b⟩ ::
        (entries (b :: inside) body ++ [⟨some n, b :: inside, .closing b.kind⟩]) := by
  cases b <;> simp [Command.ofBlock, entriesOf, Block.kind]

/-- An added command comes behind all entries so far, inside the open blocks. -/
theorem foldEntries_add (f : Fold) (command : Command) :
    foldEntries (f.add command) =
      foldEntries f ++ entriesOf (f.stack.map OpenBlock.block) command := by
  cases h : f.stack with
  | nil => simp [Fold.add, foldEntries, openEntries, entries_append, entries, h]
  | cons o os => simp [Fold.add, foldEntries, openEntries, entries_append, entries, h]

/-- A step lists its statement behind all others, inside the open blocks. -/
theorem foldEntries_step {s : Statement} (hg : f.step n s = .ok g) :
    foldEntries g = foldEntries f ++ [⟨numberOf n s, (opened f).map Prod.snd, s⟩] := by
  have hopen : (opened f).map Prod.snd = f.stack.map OpenBlock.block := by
    simp [opened, Function.comp_def]
  rw [hopen]
  cases s with
  | blank =>
    cases hg
    rw [foldEntries_add]
    rfl
  | line content =>
    cases hg
    rw [foldEntries_add]
    rfl
  | opening b =>
    cases hg
    simp [foldEntries, openEntries, entries, numberOf]
  | closing kind =>
    simp only [Fold.step] at hg
    split at hg
    · cases hg
    · next o os hstack =>
      split at hg
      · next hkind =>
        cases hg
        rw [foldEntries_add, entriesOf_ofBlock, hkind]
        simp [foldEntries, openEntries, hstack, numberOf]
      · cases hg

/-- The blocks that are open after a step. -/
theorem Leaves.step {s : Statement} (hw : Leaves w (opened f))
    (hg : f.step (w.length + 1) s = .ok g) : Leaves (w ++ [s]) (opened g) := by
  cases s with
  | blank =>
    cases hg
    simpa using hw.append (.blank .nil)
  | line content =>
    cases hg
    simpa using hw.append (.line content .nil)
  | opening b =>
    cases hg
    exact .inside b hw .nil
  | closing kind =>
    obtain ⟨m, b, outer, ho, rfl⟩ := step_closing_eq_ok_iff.1 ⟨g, hg⟩
    rw [opened_of_step_closing ho hg]
    rw [ho] at hw
    exact hw.close

/-- What holds of a fold that has gone through a word. -/
structure Follows (w : List Statement) (f : Fold) : Prop where
  leaves : Leaves w (opened f)
  lists : Lists w (foldEntries f)

theorem Follows.start : Follows [] .start where
  leaves := .nested .nil
  lists := ⟨rfl, fun i e h => by simp [foldEntries, openEntries, entries, Fold.start] at h⟩

theorem Follows.step {s : Statement} (h : Follows w f) (hg : f.step (w.length + 1) s = .ok g) :
    Follows (w ++ [s]) g where
  leaves := h.leaves.step hg
  lists := by
    have hlength : (foldEntries f).length = w.length := by
      simpa using congrArg List.length h.lists.statements
    rw [foldEntries_step hg]
    refine ⟨by simp [h.lists.statements], fun i e he => ?_⟩
    rcases Nat.lt_or_ge i w.length with hi | hi
    · rw [List.getElem?_append_left (by omega)] at he
      rw [List.take_append_of_le_length (by omega)]
      exact h.lists.entry i e he
    · rw [List.getElem?_append_right (by omega), hlength] at he
      obtain rfl : i = w.length := by
        have hlt := (List.getElem?_eq_some_iff.1 he).1
        simp only [List.length_singleton] at hlt
        omega
      obtain rfl : _ = e := by simpa using he
      refine ⟨rfl, opened f, ?_, rfl⟩
      rw [List.take_left']
      · exact h.leaves
      · rfl

/-- The fold of a word lists the word and knows the blocks that it leaves open. -/
theorem Follows.foldWord (h : Follows w f) (hg : foldWord f (w.length + 1) v = .ok g) :
    Follows (w ++ v) g := by
  induction v generalizing w f with
  | nil =>
    cases hg
    simpa using h
  | cons s v ih =>
    obtain ⟨f', hf', hg'⟩ := Steps.bind_eq_ok_iff.1 hg
    have hfolds := ih (h.step hf') (by simpa using hg')
    simpa using hfolds

/-! ## From lines to words -/

theorem Reads.take (h : Reads lines w) (i : Nat) : Reads (lines.take i) (w.take i) := by
  rw [Reads, List.map_take, List.map_take, h]

/-- Each statement of a word is read from the line at its place. -/
theorem Reads.exists_getElem? (h : Reads lines w) (hi : i < w.length) :
    ∃ line, lines[i]? = some line ∧ Statement.parse line = .ok w[i] := by
  have hget := congrArg (fun l : List (Except Error Statement) => l[i]?) h
  rw [List.getElem?_map, List.getElem?_map, List.getElem?_eq_getElem hi] at hget
  exact Option.map_eq_some_iff.1 hget

/-- Lines are read as at most one word. -/
theorem Reads.unique (hw : Reads lines w) (hv : Reads lines v) : w = v := by
  have hmap : w.map (Except.ok (ε := Error)) = v.map .ok := hw.symm.trans hv
  exact List.map_injective_iff.2 (fun _ _ => Except.ok.inj) hmap

/-- A located error and its cause. -/
theorem locate_of_bind_step {line : Text}
    (h : (Statement.parse line).bind (f.step n) = .error e) (template : Text) (m : Nat) :
    e.locate template m = .located template m e := by
  rcases Steps.bind_eq_error_iff.1 h with h | ⟨s, -, h⟩
  · exact (Statement.parse_error h).locate template m
  · cases s with
    | closing kind =>
      simp only [Fold.step] at h
      split at h
      · cases h; rfl
      · split at h
        · cases h
        · cases h; rfl
    | _ => cases h

theorem lines_eq_ok_iff :
    f.lines template n lines = .ok g ↔ ∃ w, Reads lines w ∧ foldWord f n w = .ok g := by
  induction lines generalizing f n with
  | nil =>
    constructor
    · intro h
      exact ⟨[], rfl, h⟩
    · rintro ⟨w, hw, hg⟩
      obtain rfl : w = [] := by simpa [Reads] using hw.symm
      exact hg
  | cons line lines ih =>
    rw [Fold.lines]
    constructor
    · intro h
      split at h
      · next f' hf' =>
        obtain ⟨s, hs, hstep⟩ := Steps.bind_eq_ok_iff.1 hf'
        obtain ⟨w, hw, hg⟩ := ih.1 h
        refine ⟨s :: w, by rw [Reads, List.map_cons, List.map_cons, hs, hw], ?_⟩
        exact Steps.bind_eq_ok_iff.2 ⟨f', hstep, hg⟩
      · cases h
    · rintro ⟨w, hw, hg⟩
      cases w with
      | nil => cases hw
      | cons s w =>
        obtain ⟨hs, hw⟩ := List.cons.inj hw
        obtain ⟨f', hstep, hg⟩ := Steps.bind_eq_ok_iff.1 hg
        have hf' : (Statement.parse line).bind (f.step n) = .ok f' := by rw [hs]; exact hstep
        rw [hf']
        exact ih.2 ⟨w, hw, hg⟩

/-- Where folding lines fails: the lines before are a word, and the next one cannot be
read or not be folded behind it. -/
theorem exists_of_lines_eq_error (h : f.lines template n lines = .error e) :
    ∃ i line w g cause, lines[i]? = some line ∧ Reads (lines.take i) w ∧ w.length = i ∧
      foldWord f n w = .ok g ∧ (Statement.parse line).bind (g.step (n + i)) = .error cause ∧
        e = .located template (n + i) cause := by
  induction lines generalizing f n with
  | nil => cases h
  | cons line lines ih =>
    rw [Fold.lines] at h
    split at h
    · next f' hf' =>
      obtain ⟨s, hs, hstep⟩ := Steps.bind_eq_ok_iff.1 hf'
      obtain ⟨i, l, w, g, cause, hl, hw, hi, hg, hcause, he⟩ := ih h
      have hn : n + 1 + i = n + (i + 1) := by omega
      refine ⟨i + 1, l, s :: w, g, cause, by simpa using hl, ?_, by simp [hi], ?_, ?_, ?_⟩
      · rw [Reads, List.take_succ_cons, List.map_cons, List.map_cons, hs, hw]
      · exact Steps.bind_eq_ok_iff.2 ⟨f', hstep, hg⟩
      · rwa [← hn]
      · rwa [← hn]
    · next cause hcause =>
      cases h
      exact ⟨0, line, [], f, cause, rfl, rfl, rfl, rfl, hcause, locate_of_bind_step hcause _ _⟩

/-! ## Faults -/

/-- Behind lines that fold, a line is at fault exactly when it does not fold, and its
fault is the failure. -/
theorem faultAt_iff {line : Text} (hline : lines[i]? = some line)
    (hw : Reads (lines.take i) w) (hf : Follows w f) :
    FaultAt lines i e ↔ (Statement.parse line).bind (f.step n) = .error e := by
  have hleaves := hf.leaves
  constructor
  · intro h
    cases h with
    | unread hline' he =>
      obtain rfl := Option.some.inj (hline.symm.trans hline')
      rw [he]
      rfl
    | nothingOpen hline' hparse hbefore hnone =>
      obtain rfl := Option.some.inj (hline.symm.trans hline')
      obtain rfl := hbefore.unique hw
      have hstack : f.stack = [] := List.map_eq_nil_iff.1 (hleaves.unique hnone)
      simp only [hparse, Except.bind, Fold.step, hstack]
    | @wrongKind _ kind _ m b outer hline' hparse hbefore hopen hkind =>
      obtain rfl := Option.some.inj (hline.symm.trans hline')
      obtain rfl := hbefore.unique hw
      obtain ⟨o, os, hstack, ho, -⟩ := List.map_eq_cons_iff.1 (hleaves.unique hopen)
      obtain ⟨rfl, rfl⟩ := Prod.mk.inj ho
      simp only [hparse, Except.bind, Fold.step, hstack]
      exact if_neg hkind
  · intro h
    rcases Steps.bind_eq_error_iff.1 h with h | ⟨s, hs, h⟩
    · exact .unread hline h
    · cases s with
      | closing kind =>
        simp only [Fold.step] at h
        split at h
        · next hstack =>
          cases h
          rw [opened, hstack] at hleaves
          exact .nothingOpen hline hs hw hleaves
        · next o os hstack =>
          split at h
          · cases h
          · next hkind =>
            cases h
            rw [opened, hstack] at hleaves
            exact .wrongKind hline hs hw hleaves hkind
      | _ => cases h

/-- No line that has been folded is at fault. -/
theorem not_faultAt_of_foldWord {k : Nat} (hw : Reads (lines.take k) w)
    (hg : foldWord .start 1 w = .ok g) (hi : i < w.length) : ¬ FaultAt lines i e := by
  obtain ⟨line, hline, hparse⟩ := hw.exists_getElem? hi
  have hik : i < k := by
    have hlt := (List.getElem?_eq_some_iff.1 hline).1
    rw [List.length_take] at hlt
    omega
  rw [List.getElem?_take_of_lt hik] at hline
  have hsplit : w = w.take i ++ w[i] :: w.drop (i + 1) := by simp
  rw [hsplit, foldWord_append] at hg
  obtain ⟨f, hf, hrest⟩ := Steps.bind_eq_ok_iff.1 hg
  obtain ⟨f', hstep, -⟩ := Steps.bind_eq_ok_iff.1 hrest
  have hreads : Reads (lines.take i) (w.take i) := by
    have h := hw.take i
    rwa [List.take_take, Nat.min_eq_left hik.le] at h
  have hfollows : Follows (w.take i) f := by simpa using Follows.start.foldWord hf
  rw [faultAt_iff hline hreads hfollows, hparse]
  intro h
  rw [show (Except.ok w[i]).bind _ = f.step _ w[i] from rfl, hstep] at h
  cases h

/-- What has been folded line by line. -/
theorem exists_follows_of_lines (h : Fold.start.lines template 1 lines = .ok f) :
    ∃ w, Reads lines w ∧ Follows w f ∧ ∀ i e, ¬ FaultAt lines i e := by
  obtain ⟨w, hw, hf⟩ := lines_eq_ok_iff.1 h
  have hlength : lines.length = w.length := by simpa using congrArg List.length hw
  refine ⟨w, hw, by simpa using Follows.start.foldWord hf, fun i e hfault => ?_⟩
  have hi : i < lines.length := by
    obtain ⟨line, hline⟩ : ∃ line, lines[i]? = some line := by cases hfault <;> exact ⟨_, ‹_›⟩
    exact (List.getElem?_eq_some_iff.1 hline).1
  refine not_faultAt_of_foldWord (k := lines.length) ?_ hf (hlength ▸ hi) hfault
  rwa [List.take_length]

/-- Where folding lines fails, there is the first fault. -/
theorem exists_faultAt_of_lines (h : Fold.start.lines template 1 lines = .error e) :
    ∃ i cause, FaultAt lines i cause ∧ (∀ j < i, ∀ c, ¬ FaultAt lines j c) ∧
      e = .located template (i + 1) cause := by
  obtain ⟨i, line, w, g, cause, hline, hw, hi, hg, hcause, he⟩ := exists_of_lines_eq_error h
  have hfollows : Follows w g := by simpa using Follows.start.foldWord hg
  refine ⟨i, cause, (faultAt_iff hline hw hfollows).2 hcause, fun j hj c => ?_, ?_⟩
  · exact not_faultAt_of_foldWord hw hg (by omega)
  · rw [he, Nat.add_comm]

/-! ## Compiling -/

/-- Commands are had when no block is open behind the last line; they list the lines. -/
theorem exists_lists_of_compile {cs : List Command} (h : Command.compile template lines = .ok cs) :
    ∃ w, Reads lines w ∧ WellNested w ∧ Lists w (entries [] cs) := by
  obtain ⟨f, hf, hfinish⟩ := Steps.bind_eq_ok_iff.1 h
  obtain ⟨w, hw, hfollows, -⟩ := exists_follows_of_lines hf
  rw [Fold.finish] at hfinish
  split at hfinish
  · next hstack =>
    cases hfinish
    have hleaves := hfollows.leaves
    have hlists := hfollows.lists
    rw [opened, hstack] at hleaves
    rw [foldEntries, hstack] at hlists
    cases hleaves with
    | nested hnested => exact ⟨w, hw, hnested, by simpa [openEntries] using hlists⟩
  · cases hfinish

theorem exists_compile_of_wellNested (hw : Reads lines w) (hnested : WellNested w) :
    ∃ cs, Command.compile template lines = .ok cs := by
  obtain ⟨f, hf, ho⟩ := hnested.exists_foldWord .start 1
  have hlines : Fold.start.lines template 1 lines = .ok f := lines_eq_ok_iff.2 ⟨w, hw, hf⟩
  have hstack : f.stack = [] := List.map_eq_nil_iff.1 ho
  refine ⟨f.done.reverse, Steps.bind_eq_ok_iff.2 ⟨f, hlines, ?_⟩⟩
  rw [Fold.finish, hstack]

/-- The failure to compile is the first fault, or the innermost block left open. -/
theorem fault_of_compile (h : Command.compile template lines = .error e) :
    (∃ i cause, FaultAt lines i cause ∧ (∀ j < i, ∀ c, ¬ FaultAt lines j c) ∧
        e = .located template (i + 1) cause) ∨
      ((∀ i c, ¬ FaultAt lines i c) ∧ ∃ w n b outer, Reads lines w ∧ Leaves w ((n, b) :: outer) ∧
        e = .located template n (.unbalanced (.neverClosed b.kind))) := by
  rcases Steps.bind_eq_error_iff.1 h with h | ⟨f, hf, h⟩
  · exact .inl (exists_faultAt_of_lines h)
  · obtain ⟨w, hw, hfollows, hnone⟩ := exists_follows_of_lines hf
    rw [Fold.finish] at h
    split at h
    · cases h
    · next o os hstack =>
      cases h
      have hleaves := hfollows.leaves
      rw [opened, hstack] at hleaves
      exact .inr ⟨hnone, w, _, _, _, hw, hleaves, rfl⟩

/-- A fault keeps the lines from compiling. -/
theorem FaultAt.exists_compile_error (h : FaultAt lines i e) (template : Text) :
    ∃ e', Command.compile template lines = .error e' := by
  cases hf : Fold.start.lines template 1 lines with
  | ok f =>
    obtain ⟨_, _, _, hnone⟩ := exists_follows_of_lines hf
    exact absurd h (hnone i e)
  | error e' => exact ⟨e', Steps.bind_eq_error_iff.2 (.inl hf)⟩

/-- A line has at most one fault, when no line before it has one. -/
theorem FaultAt.unique {a b : Error} (ha : FaultAt lines i a) (hb : FaultAt lines i b)
    (hnone : ∀ j < i, ∀ c, ¬ FaultAt lines j c) : a = b := by
  cases hf : Fold.start.lines [] 1 lines with
  | ok f =>
    obtain ⟨_, _, _, hnone⟩ := exists_follows_of_lines hf
    exact absurd ha (hnone i a)
  | error e =>
    obtain ⟨k, line, w, g, cause, hline, hw, hk, hg, hcause, -⟩ := exists_of_lines_eq_error hf
    have hfollows : Follows w g := by simpa using Follows.start.foldWord hg
    obtain rfl : k = i := by
      have hle : ¬ k < i := fun h => hnone k h cause ((faultAt_iff hline hw hfollows).2 hcause)
      have hge : ¬ i < k := fun h => not_faultAt_of_foldWord hw hg (by omega) ha
      omega
    have hstep : (Statement.parse line).bind (g.step 0) = .error a :=
      (faultAt_iff hline hw hfollows).1 ha
    have hstep' : (Statement.parse line).bind (g.step 0) = .error b :=
      (faultAt_iff hline hw hfollows).1 hb
    exact Except.error.inj (hstep.symm.trans hstep')

/-- **Compiling accepts exactly the well-nested templates.** The commands are then the
lines in their order, each at its own line and inside the blocks that are open there.
Otherwise the failure is the first fault of a line, located there; without one it is
the innermost block left open, located where it was opened. -/
theorem compile_nests (template : Text) (lines : List Text) :
    ((∃ cs, Command.compile template lines = .ok cs) ↔ ∃ w, Reads lines w ∧ WellNested w) ∧
      (∀ cs, Command.compile template lines = .ok cs →
        ∃ w, Reads lines w ∧ WellNested w ∧ Lists w (entries [] cs)) ∧
      ∀ e, Command.compile template lines = .error e ↔
        (∃ i cause, FaultAt lines i cause ∧ (∀ j < i, ∀ c, ¬ FaultAt lines j c) ∧
          e = .located template (i + 1) cause) ∨
        ((∀ i c, ¬ FaultAt lines i c) ∧ ∃ w n b outer, Reads lines w ∧
          Leaves w ((n, b) :: outer) ∧
            e = .located template n (.unbalanced (.neverClosed b.kind))) := by
  refine ⟨⟨?_, ?_⟩, fun cs => exists_lists_of_compile, fun e => ⟨fault_of_compile, ?_⟩⟩
  · rintro ⟨cs, hcs⟩
    obtain ⟨w, hw, hnested, -⟩ := exists_lists_of_compile hcs
    exact ⟨w, hw, hnested⟩
  · rintro ⟨w, hw, hnested⟩
    exact exists_compile_of_wellNested hw hnested
  · rintro (⟨i, cause, hfault, hfirst, rfl⟩ | ⟨hnone, w, n, b, outer, hw, hleaves, rfl⟩)
    · obtain ⟨e', he'⟩ := hfault.exists_compile_error template
      rcases fault_of_compile he' with ⟨k, c, hfault', hfirst', rfl⟩ | ⟨hnone, -⟩
      · obtain rfl : i = k := by
          have hle : ¬ i < k := fun h => hfirst' i h cause hfault
          have hge : ¬ k < i := fun h => hfirst k h c hfault'
          omega
        rw [he', hfault.unique hfault' hfirst]
      · exact absurd hfault (hnone i cause)
    · cases hcompile : Command.compile template lines with
      | ok cs =>
        obtain ⟨v, hv, hnested, -⟩ := exists_lists_of_compile hcompile
        obtain rfl := hv.unique hw
        cases (Leaves.nested hnested).unique hleaves
      | error e' =>
        rcases fault_of_compile hcompile with ⟨k, c, hfault, -⟩ | ⟨-, v, m, a, o, hv, hl, rfl⟩
        · exact absurd hfault (hnone k c)
        · obtain rfl := hv.unique hw
          cases hl.unique hleaves
          rfl

end Stencil.Nesting
