import Mathlib.Algebra.Group.Nat.Defs
import Stencil.Config

/-!
# The integers of a document

Every integer in a TOML document is one of 64 bits: a word that writes another number is no
value, and what builds the tree of a document puts no integers into it. So however a document
says the width of an indentation level, the width is below 2⁶³.

## Main definitions

* `Toml.Value.Bounded`: the integers in a value are in range.
* `Toml.Entries.Keeps`: a change of entries leaves their integers in range.
-/
namespace Stencil

namespace Toml

theorem mem_of_lookup {α : Type} {es : List (Text × α)} {key : Text} {x : α}
    (h : es.lookup key = some x) : (key, x) ∈ es := by
  obtain ⟨front, back, rfl, -⟩ := List.lookup_eq_some_iff.1 h
  exact List.mem_append_right front List.mem_cons_self

theorem exists_of_mem_mapM {α β : Type} {f : α → Option β} {xs : List α} {ys : List β} {y : β}
    (h : xs.mapM f = some ys) (hy : y ∈ ys) : ∃ x ∈ xs, f x = some y := by
  induction xs generalizing ys with
  | nil =>
    cases h
    cases hy
  | cons x xs ih =>
    rw [List.mapM_cons] at h
    obtain ⟨first, hfirst, h⟩ := Option.bind_eq_some_iff.1 h
    obtain ⟨others, hothers, h⟩ := Option.bind_eq_some_iff.1 h
    cases h
    rcases List.mem_cons.1 hy with rfl | hy
    · exact ⟨x, List.mem_cons_self, hfirst⟩
    · obtain ⟨x', hx', hy'⟩ := ih hothers hy
      exact ⟨x', List.mem_cons_of_mem _ hx', hy'⟩

/-! ## Values -/

/-- A scalar is in range if it is an integer. -/
def Scalar.Bounded : Scalar → Prop
  | .integer n => Number.InRange n
  | .bool _ | .float | .datetime => True

/-- Every integer in a value is in range. -/
inductive Value.Bounded : Value → Prop
  | string (text : Text) : Bounded (.string text)
  | scalar {s : Scalar} : s.Bounded → Bounded (.scalar s)
  | array {items : List Value} : (∀ v ∈ items, Bounded v) → Bounded (.array items)
  | table {entries : List (Text × Value)} : (∀ e ∈ entries, Bounded e.2) → Bounded (.table entries)

variable {s : Scalar} {v : Value} {t : Text} {n : Int}

theorem Scalar.bounded_of_bounded? (h : bounded? n = some s) : s.Bounded := by
  unfold bounded? at h
  split at h
  · next hn =>
    cases h
    exact hn
  · cases h

/-- Whatever its base, a word with a number is checked before it is a value. -/
theorem Scalar.bounded_of_integer? (h : integer? t = some s) : s.Bounded := by
  unfold integer? at h
  split at h
  all_goals
    obtain ⟨digits, -, hdigits⟩ := Option.bind_eq_some_iff.1 h
    exact bounded_of_bounded? hdigits

theorem Scalar.bounded_of_scalar? (h : scalar? t = some s) : s.Bounded := by
  unfold scalar? at h
  iterate 4
    split at h
    · cases h
      trivial
  exact bounded_of_integer? h

/-! ## Trees under construction -/

/-- Every integer in a tree is in range. -/
inductive Node.Bounded : Node → Prop
  | value {v : Value} : v.Bounded → Bounded (.value v)
  | table (implicit dotted : Bool) {entries : List (Text × Node)} :
    (∀ e ∈ entries, Bounded e.2) → Bounded (.table implicit dotted entries)
  | tables {elements : List (List (Text × Node))} :
    (∀ t ∈ elements, ∀ e ∈ t, Bounded e.2) → Bounded (.tables elements)

namespace Entries

variable {es es' : Entries} {node : Node} {change : Entries → Option Entries} {key : Text}
  {path : List Text}

/-- Every integer in some entries is in range. -/
def Bounded (es : Entries) : Prop := ∀ e ∈ es, e.2.Bounded

/-- Where a change succeeds, it leaves integers in range that were. -/
def Keeps (change : Entries → Option Entries) : Prop :=
  ∀ es es', Bounded es → change es = some es' → Bounded es'

theorem bounded_nil : Bounded [] := fun _ h => absurd h List.not_mem_nil

theorem bounded_append (h : Bounded es) (hnode : node.Bounded) :
    Bounded (es ++ [(key, node)]) := by
  intro e he
  rcases List.mem_append.1 he with he | he
  · exact h e he
  · rw [List.mem_singleton.1 he]
    exact hnode

theorem Bounded.of_lookup (h : Bounded es) (hkey : es.lookup key = some node) : node.Bounded :=
  h (key, node) (mem_of_lookup hkey)

theorem bounded_set (h : Bounded es) (hnode : node.Bounded) : Bounded (set key node es) := by
  induction es with
  | nil => exact bounded_append bounded_nil hnode
  | cons e es ih =>
    obtain ⟨hhead, htail⟩ := List.forall_mem_cons.1 h
    rw [set]
    split
    · exact List.forall_mem_cons.2 ⟨hnode, htail⟩
    · exact List.forall_mem_cons.2 ⟨hhead, ih htail⟩

theorem bounded_changeLast? (hchange : Keeps change) {ts ts' : List Entries}
    (h : ∀ t ∈ ts, Bounded t) (hts : changeLast? change ts = some ts') : ∀ t ∈ ts', Bounded t := by
  induction ts using changeLast?.induct generalizing ts' with
  | case1 => cases hts
  | case2 t =>
    obtain ⟨t', ht', rfl⟩ := Option.map_eq_some_iff.1 hts
    exact List.forall_mem_singleton.2 (hchange t t' (h t List.mem_cons_self) ht')
  | case3 t ts hne ih =>
    rw [changeLast?] at hts
    · obtain ⟨ts'', hts'', rfl⟩ := Option.map_eq_some_iff.1 hts
      obtain ⟨hhead, htail⟩ := List.forall_mem_cons.1 h
      exact List.forall_mem_cons.2 ⟨hhead, ih htail hts''⟩
    · exact hne

/-- A change far down in a tree is one of the whole tree. The induction is on the path, and
each name on it is missing, a table, or the tables of repeated headers. -/
theorem keeps_changeAt? {dotted : Bool} {change : Bool → Entries → Option Entries}
    (hchange : ∀ isDotted, Keeps (change isDotted)) (path : List Text) (isDotted : Bool) :
    Keeps (changeAt? dotted change path isDotted) := by
  induction path generalizing isDotted with
  | nil => exact hchange isDotted
  | cons key path ih =>
    intro es es' hes h
    rw [changeAt?] at h
    split at h
    · obtain ⟨t, ht, rfl⟩ := Option.map_eq_some_iff.1 h
      exact bounded_set hes (.table _ _ (ih _ _ _ bounded_nil ht))
    · cases h
    · next elements hkey =>
      obtain ⟨ts, hts, rfl⟩ := Option.map_eq_some_iff.1 h
      cases hes.of_lookup hkey with
      | tables helements =>
        exact bounded_set hes (.tables (bounded_changeLast? (ih _) helements hts))
    · next implicit isDotted' inner hkey =>
      split at h
      · cases h
      · obtain ⟨t, ht, rfl⟩ := Option.map_eq_some_iff.1 h
        cases hes.of_lookup hkey with
        | table _ _ hinner => exact bounded_set hes (.table _ _ (ih _ _ _ hinner ht))

theorem keeps_addValue? (path : List Text) (key : Text) (hv : v.Bounded) :
    Keeps (addValue? path key v) := by
  refine keeps_changeAt? (fun isDotted es es' hes h => ?_) path false
  split at h
  · cases h
  · split at h
    · cases h
    · cases h
      exact bounded_append hes (.value hv)

theorem keeps_openTable? (path : List Text) (key : Text) : Keeps (openTable? path key) := by
  refine keeps_changeAt? (fun _ es es' hes h => ?_) path false
  split at h
  · cases h
    exact bounded_append hes (.table _ _ bounded_nil)
  · next inner hkey =>
    cases h
    cases hes.of_lookup hkey with
    | table _ _ hinner => exact bounded_set hes (.table _ _ hinner)
  · cases h

theorem keeps_openElement? (path : List Text) (key : Text) : Keeps (openElement? path key) := by
  refine keeps_changeAt? (fun _ es es' hes h => ?_) path false
  split at h
  · cases h
    exact bounded_append hes (.tables (List.forall_mem_singleton.2 bounded_nil))
  · next elements hkey =>
    cases h
    cases hes.of_lookup hkey with
    | tables helements =>
      refine bounded_set hes (.tables fun t ht => ?_)
      rcases List.mem_append.1 ht with ht | ht
      · exact helements t ht
      · rw [List.mem_singleton.1 ht]
        exact bounded_nil
  · cases h

end Entries

mutual

theorem Node.bounded_toValue : ∀ {node : Node}, node.Bounded → node.toValue.Bounded
  | .value _, .value h => h
  | .table _ _ _, .table _ _ h => .table (Entries.bounded_toValues h)
  | .tables _, .tables h => .array (bounded_elementsToValues h)

theorem Entries.bounded_toValues : ∀ {es : List (Text × Node)}, (∀ e ∈ es, e.2.Bounded) →
    ∀ e ∈ Entries.toValues es, e.2.Bounded
  | [], _ => fun _ h => absurd h List.not_mem_nil
  | (_, _) :: _, h =>
    List.forall_mem_cons.2 ⟨Node.bounded_toValue (List.forall_mem_cons.1 h).1,
      Entries.bounded_toValues (List.forall_mem_cons.1 h).2⟩

theorem bounded_elementsToValues : ∀ {ts : List (List (Text × Node))},
    (∀ t ∈ ts, ∀ e ∈ t, e.2.Bounded) → ∀ v ∈ elementsToValues ts, v.Bounded
  | [], _ => fun _ h => absurd h List.not_mem_nil
  | _ :: _, h =>
    List.forall_mem_cons.2 ⟨.table (Entries.bounded_toValues (List.forall_mem_cons.1 h).1),
      bounded_elementsToValues (List.forall_mem_cons.1 h).2⟩

end

/-! ## Terms -/

/-- Every integer in the value of a term is in range. -/
def Term.Bounded : Term → Prop
  | .token _ => True
  | .value v => v.Bounded

namespace Term

variable {terms ts : List Term} {part : List Term} {parts : List (List Term)} {es es' : Entries}
  {path : List Text} {key : Text} {v : Value}

theorem bounded_value? (h : ∀ t ∈ terms, t.Bounded) (hv : value? terms = some v) : v.Bounded := by
  unfold value? at hv
  split at hv
  · cases hv
    exact h _ List.mem_cons_self
  · cases hv
    exact .string _
  · obtain ⟨s, hs, rfl⟩ := Option.map_eq_some_iff.1 hv
    exact .scalar (Scalar.bounded_of_scalar? hs)
  · split at hv
    · cases hv
      exact .scalar trivial
    · cases hv
  · cases hv

theorem mem_of_mem_trimTerms {skip : Term → Bool} {t : Term} (h : t ∈ trimTerms skip terms) :
    t ∈ terms := by
  have hdropped := (List.dropWhile_sublist _).subset (List.mem_reverse.1 h)
  exact (List.dropWhile_sublist _).subset (List.mem_reverse.1 hdropped)

theorem mem_of_mem_splitTerms {isBorder : Term → Bool} {t : Term}
    (hpart : part ∈ splitTerms isBorder terms) (ht : t ∈ part) : t ∈ terms := by
  induction terms generalizing part with
  | nil =>
    rw [List.mem_singleton.1 hpart] at ht
    cases ht
  | cons u terms ih =>
    rw [splitTerms] at hpart
    split at hpart
    · rcases List.mem_cons.1 hpart with rfl | hpart
      · cases ht
      · exact List.mem_cons_of_mem _ (ih hpart ht)
    · next first others hsplit =>
      rw [hsplit] at ih
      rcases List.mem_cons.1 hpart with rfl | hpart
      · rcases List.mem_cons.1 ht with rfl | ht
        · exact List.mem_cons_self
        · exact List.mem_cons_of_mem _ (ih List.mem_cons_self ht)
      · exact List.mem_cons_of_mem _ (ih (List.mem_cons_of_mem _ hpart) ht)
    · rw [List.mem_singleton.1 hpart] at ht
      rw [List.mem_singleton.1 ht]
      exact List.mem_cons_self

/-- The terms of the parts between commas, without the blanks around them. -/
theorem bounded_parts (skip : Term → Bool) (h : ∀ t ∈ terms, t.Bounded) :
    ∀ part ∈ (splitTerms isComma terms).map (trimTerms skip), ∀ t ∈ part, t.Bounded := by
  intro part hpart t ht
  obtain ⟨whole, hwhole, rfl⟩ := List.mem_map.1 hpart
  exact h t (mem_of_mem_splitTerms hwhole (mem_of_mem_trimTerms ht))

theorem bounded_pair? (h : ∀ t ∈ terms, t.Bounded) (hpair : pair? terms = some (path, key, v)) :
    v.Bounded := by
  unfold pair? at hpair
  dsimp only at hpair
  split at hpair
  · cases hpair
  · next equals behind hbehind =>
    split at hpair
    · next hvalue =>
      cases hpair
      refine bounded_value? (fun t ht => h t ?_) hvalue
      have hmem : t ∈ equals :: behind := List.mem_cons_of_mem _ (mem_of_mem_trimTerms ht)
      rw [← hbehind] at hmem
      exact (List.dropWhile_sublist _).subset hmem
    · cases hpair

theorem bounded_array? (h : ∀ t ∈ terms, t.Bounded) (hv : array? terms = some v) : v.Bounded := by
  obtain ⟨items, hitems, rfl⟩ := Option.map_eq_some_iff.1 hv
  refine .array fun item hitem => ?_
  obtain ⟨part, hpart, hvalue⟩ := exists_of_mem_mapM hitems hitem
  have hmem :
      part ∈ (splitTerms isComma terms).map (trimTerms fun t => t.isGap || t.isNewline) := by
    split at hpart
    · exact (List.dropLast_sublist _).subset hpart
    · exact hpart
  exact bounded_value? (bounded_parts _ h part hmem) hvalue

theorem bounded_addPairs? (hparts : ∀ part ∈ parts, ∀ t ∈ part, t.Bounded) :
    Entries.Keeps (addPairs? · parts) := by
  induction parts with
  | nil =>
    intro es es' hes h
    cases h
    exact hes
  | cons part parts ih =>
    intro es es' hes h
    obtain ⟨hpart, hrest⟩ := List.forall_mem_cons.1 hparts
    dsimp only at h
    rw [addPairs?] at h
    split at h
    · cases h
    · next path key v hpair =>
      obtain ⟨es'', hes'', h⟩ := Option.bind_eq_some_iff.1 h
      have hv := bounded_pair? hpart hpair
      exact ih hrest es'' es' (Entries.keeps_addValue? path key hv es es'' hes hes'') h

theorem bounded_inlineTable? (h : ∀ t ∈ terms, t.Bounded) (hv : inlineTable? terms = some v) :
    v.Bounded := by
  unfold inlineTable? at hv
  dsimp only at hv
  split at hv
  · cases hv
    exact .table fun _ he => absurd he List.not_mem_nil
  · obtain ⟨es, hes, rfl⟩ := Option.map_eq_some_iff.1 hv
    have hbounded := bounded_addPairs? (bounded_parts _ h) [] es Entries.bounded_nil hes
    exact .table (Entries.bounded_toValues hbounded)

mutual

theorem bounded_term? : ∀ (n : Nest Token) {t : Term}, term? n = some t → t.Bounded
  | .token _, _, h => by
    cases h
    trivial
  | .group .square inner, _, h => by
    obtain ⟨ts, hts, h⟩ := Option.bind_eq_some_iff.1 h
    obtain ⟨v, hv, rfl⟩ := Option.map_eq_some_iff.1 h
    exact bounded_array? (bounded_terms? inner hts) hv
  | .group .curly inner, _, h => by
    obtain ⟨ts, hts, h⟩ := Option.bind_eq_some_iff.1 h
    obtain ⟨v, hv, rfl⟩ := Option.map_eq_some_iff.1 h
    exact bounded_inlineTable? (bounded_terms? inner hts) hv

theorem bounded_terms? : ∀ (ns : List (Nest Token)) {ts : List Term}, terms? ns = some ts →
    ∀ t ∈ ts, t.Bounded
  | [], _, h => by
    cases h
    exact fun _ ht => absurd ht List.not_mem_nil
  | n :: ns, _, h => by
    rw [terms?] at h
    split at h
    · next t ts ht hts =>
      cases h
      exact List.forall_mem_cons.2 ⟨bounded_term? n ht, bounded_terms? ns hts⟩
    · cases h

end

end Term

/-! ## Documents -/

/-- Every integer in the value on a line is in range. -/
def Entry.Bounded : Entry → Prop
  | .header _ _ | .element _ _ => True
  | .pair _ _ v => v.Bounded

theorem Entry.bounded_entryOf? {line : List (Nest Token)} {e : Entry}
    (h : entryOf? line = some (some e)) : e.Bounded := by
  unfold entryOf? at h
  split at h
  · cases h
  · obtain ⟨p, -, h⟩ := Option.map_eq_some_iff.1 h
    cases h
    trivial
  · obtain ⟨p, -, h⟩ := Option.map_eq_some_iff.1 h
    cases h
    trivial
  · obtain ⟨p, hp, h⟩ := Option.map_eq_some_iff.1 h
    obtain ⟨ts, hts, hpair⟩ := Option.bind_eq_some_iff.1 hp
    cases h
    exact Term.bounded_pair? (Term.bounded_terms? _ hts) hpair

theorem bounded_addEntries? {lines : List Entry} (hlines : ∀ e ∈ lines, e.Bounded)
    (current : List Text) : Entries.Keeps (addEntries? · current lines) := by
  induction lines generalizing current with
  | nil =>
    intro es es' hes h
    cases h
    exact hes
  | cons e lines ih =>
    intro es es' hes h
    obtain ⟨he, hrest⟩ := List.forall_mem_cons.1 hlines
    cases e with
    | header path key =>
      obtain ⟨es'', hes'', h⟩ := Option.bind_eq_some_iff.1 h
      exact ih hrest _ es'' es' (Entries.keeps_openTable? path key es es'' hes hes'') h
    | element path key =>
      obtain ⟨es'', hes'', h⟩ := Option.bind_eq_some_iff.1 h
      exact ih hrest _ es'' es' (Entries.keeps_openElement? path key es es'' hes hes'') h
    | pair path key v =>
      obtain ⟨es'', hes'', h⟩ := Option.bind_eq_some_iff.1 h
      have hkeeps : Entries.Keeps
          (changeAt? false (fun _ inner => addValue? path key v inner) current false) :=
        Entries.keeps_changeAt? (fun _ => Entries.keeps_addValue? path key he) current false
      exact ih hrest _ es'' es' (hkeeps es es'' hes hes'') h

/-- The integers of a document are those of 64 bits. -/
theorem bounded_ofText? {document : Text} {entries : List (Text × Value)}
    (h : ofText? document = some entries) : ∀ e ∈ entries, e.2.Bounded := by
  unfold ofText? at h
  obtain ⟨nests, -, h⟩ := Option.bind_eq_some_iff.1 h
  split at h
  · cases h
  · obtain ⟨lines, hlines, h⟩ := Option.bind_eq_some_iff.1 h
    obtain ⟨root, hroot, h⟩ := Option.bind_eq_some_iff.1 h
    cases h
    refine Entries.bounded_toValues (bounded_addEntries? (fun e he => ?_) [] [] root
      Entries.bounded_nil hroot)
    obtain ⟨line?, hline?, rfl⟩ := List.mem_filterMap.1 he
    obtain ⟨line, -, hline⟩ := exists_of_mem_mapM hlines hline?
    exact Entry.bounded_entryOf? hline

namespace Value

variable {v w : Value} {names : List Text} {fields : List (Option Value)} {n : Nat}

theorem natural?_lt (hv : v.Bounded) (h : v.natural? = some n) : n < 2 ^ 63 := by
  unfold natural? at h
  split at h
  · next m =>
    cases hv with
    | scalar hm =>
      have hupper : m < 9223372036854775808 := hm.2
      split at h
      · cases h
        omega
      · cases h
  · cases h

theorem bounded_of_record? (hv : v.Bounded) (h : record? names v = some fields)
    (hw : some w ∈ fields) : w.Bounded := by
  unfold record? at h
  split at h
  · cases h
    obtain ⟨name, -, hname⟩ := List.mem_map.1 hw
    cases hv with
    | table hentries => exact hentries (name, w) (mem_of_lookup hname)
  · cases h
    obtain ⟨i, -, hi⟩ := List.mem_map.1 hw
    cases hv with
    | array hitems => exact hitems w (List.mem_of_getElem? hi)
  · cases h
    obtain ⟨name, -, hname⟩ := List.mem_map.1 hw
    cases hname
  · cases h

end Value

end Toml

/-! ## Configurations -/

namespace Config

variable {v : Toml.Value} {document : Text} {config : Config} {declared : List (Text × FileType)}

/-- The widths that a document can say are natural numbers below 2⁶³. -/
theorem indentUnit_of_fileType? {fileType : FileType} (hv : v.Bounded)
    (h : fileType? v = some fileType) : fileType.indentUnit < 2 ^ 63 := by
  unfold fileType? at h
  split at h
  · next extension unit rules hrecord =>
    simp only [Option.bind_eq_bind, Option.bind_eq_some_iff] at h
    obtain ⟨_, -, unit', hunit, _, -, h⟩ := h
    cases h
    refine Toml.Value.natural?_lt (Toml.Value.bounded_of_record? hv hrecord ?_) hunit
    exact List.mem_cons_of_mem _ List.mem_cons_self
  · cases h
  · next extension unit rules _ _ hrecord =>
    simp only [Option.bind_eq_bind, Option.bind_eq_some_iff] at h
    obtain ⟨_, -, unit', hunit, _, -, h⟩ := h
    cases h
    cases unit with
    | none =>
      cases hunit
      have hdefault : defaultUnit < 2 ^ 63 := by decide
      exact hdefault
    | some unit =>
      refine Toml.Value.natural?_lt (Toml.Value.bounded_of_record? hv hrecord ?_) hunit
      exact List.mem_cons_of_mem _ List.mem_cons_self
  · cases h

theorem indentUnit_of_fileTypes? {entries : List (Text × Toml.Value)}
    (hentries : ∀ e ∈ entries, e.2.Bounded) (h : fileTypes? entries = some declared) :
    ∀ t ∈ declared, t.2.indentUnit < 2 ^ 63 := by
  induction entries generalizing declared with
  | nil =>
    cases h
    exact fun _ ht => absurd ht List.not_mem_nil
  | cons e entries ih =>
    obtain ⟨hhead, htail⟩ := List.forall_mem_cons.1 hentries
    rw [fileTypes?] at h
    split at h
    · next fileType rest hfileType hrest =>
      cases h
      exact List.forall_mem_cons.2 ⟨indentUnit_of_fileType? hhead hfileType, ih htail hrest⟩
    · cases h

theorem mem_withBuiltins {t : Text × FileType} (h : t ∈ withBuiltins declared) :
    t ∈ declared ∨ t ∈ builtinTypes := by
  have hmem := (List.mergeSort_perm _ _).mem_iff.1 h
  exact (List.mem_append.1 hmem).imp_right fun hleft => (List.mem_filter.1 hleft).1

/-- The file types of a document: those in its table of file types, and the built-in ones. -/
theorem exists_declared (h : ofText document = .ok config) :
    ∃ entries declared, Toml.ofText? document = some entries ∧
      Toml.Value.orElse [] (fun v => v.entries?.bind fileTypes?)
        (entries.lookup "file_types".toList) = some declared ∧
      config.fileTypes = withBuiltins declared := by
  unfold ofText at h
  split at h
  · next config' hconfig =>
    cases h
    unfold ofText? at hconfig
    obtain ⟨entries, hentries, hconfig⟩ := Option.bind_eq_some_iff.1 hconfig
    dsimp only at hconfig
    split at hconfig
    · simp only [Option.bind_eq_bind, Option.bind_eq_some_iff] at hconfig
      obtain ⟨level, -, output, -, declared, hdeclared, hconfig⟩ := hconfig
      cases hconfig
      exact ⟨entries, declared, hentries, hdeclared, rfl⟩
    · cases hconfig
  · cases h

theorem indentUnit_of_declared {v? : Option Toml.Value} (hv : ∀ v, v? = some v → v.Bounded)
    (h : Toml.Value.orElse [] (fun v => v.entries?.bind fileTypes?) v? = some declared) :
    ∀ t ∈ declared, t.2.indentUnit < 2 ^ 63 := by
  cases v? with
  | none =>
    cases h
    exact fun _ ht => absurd ht List.not_mem_nil
  | some v =>
    obtain ⟨entries, hentries, h⟩ := Option.bind_eq_some_iff.1 h
    cases hv v rfl with
    | table htable =>
      cases hentries
      exact indentUnit_of_fileTypes? htable h
    | string | scalar | array => cases hentries

/-- However a document declares its file types, the width of a level is below 2⁶³. -/
theorem indentUnit_lt (h : ofText document = .ok config) :
    ∀ t ∈ config.fileTypes, t.2.indentUnit < 2 ^ 63 := by
  obtain ⟨entries, declared, hentries, hdeclared, htypes⟩ := exists_declared h
  have hv : ∀ v, entries.lookup "file_types".toList = some v → v.Bounded :=
    fun v hvalue => Toml.bounded_ofText? hentries _ (Toml.mem_of_lookup hvalue)
  intro t ht
  rw [htypes] at ht
  rcases mem_withBuiltins ht with ht | ht
  · exact indentUnit_of_declared hv hdeclared t ht
  · have hbuiltin : ∀ t ∈ builtinTypes, t.2.indentUnit < 2 ^ 63 := by decide
    exact hbuiltin t ht

example : ofText? "[file_types.cs]\nindent_unit = 9223372036854775808\n".toList = none := by
  decide +kernel

end Config

end Stencil
