import Stencil.Proofs.Paths

/-!
# Walking through disks

A walk passes directories only, so it goes the same way on every disk that has them too.
Making directories leaves all that is there and adds directories on the way, and writing
changes the one place that the path leads to. On a disk whose entries all stand in
directories both keep this, and a way down finds whatever is at its end.

## Main definitions

* `Disk.fileAt?`: the contents of the file at a place.
* `Disk.Lawful`: disks whose entries stand in directories.
* `Disk.Grows`: disks that have the directories of another.
* `Disk.Leads`: a path that leads to a directory.
-/
namespace Stencil.Disk

variable {d d' : Disk} {here there p q : List Text} {front ss : List Text} {path root name : Text}
  {step contents : Text} {entry : Entry}

/-- The contents of the file at a place. -/
def fileAt? (d : Disk) (p : List Text) : Option Text :=
  match d.get? p with
  | some (.file contents) => some contents
  | _ => none

/-- Whether a place is a directory. -/
def IsDirectory (d : Disk) (p : List Text) : Prop := d.get? p = some .directory

instance (d : Disk) : DecidablePred d.IsDirectory := fun p =>
  inferInstanceAs (Decidable (d.get? p = some .directory))

/-- A disk on which every entry stands in a directory, and whose working directory is one. -/
structure Lawful (d : Disk) : Prop where
  home : d.IsDirectory d.home
  above : ∀ p, d.get? p ≠ none → d.IsDirectory p.dropLast

/-- A disk with the directories of another, at least. -/
structure Grows (d d' : Disk) : Prop where
  home : d'.home = d.home
  directory : ∀ p, d.IsDirectory p → d'.IsDirectory p

/-- Walking along a path ends at a directory. -/
def Leads (d : Disk) (path : Text) (p : List Text) : Prop :=
  d.walk? (d.start path) (steps path) = some p ∧ d.IsDirectory p

/-! ## Places -/

theorem isDirectory_root (d : Disk) : d.IsDirectory [] := rfl

theorem IsDirectory.get?_ne_none (h : d.IsDirectory p) : d.get? p ≠ none := by
  rw [h]
  exact Option.some_ne_none _

theorem fileAt?_eq_some_iff : d.fileAt? p = some contents ↔ d.get? p = some (.file contents) := by
  unfold fileAt?
  split <;> simp_all

theorem fileAt?_eq_none (h : ∀ contents, d.get? p ≠ some (.file contents)) :
    d.fileAt? p = none := by
  rw [Option.eq_none_iff_forall_ne_some]
  intro contents hfile
  exact h contents (fileAt?_eq_some_iff.1 hfile)

theorem IsDirectory.fileAt?_eq_none (h : d.IsDirectory p) : d.fileAt? p = none := by
  rw [fileAt?, h]

/-- Writing at a place changes what is there and nothing else. -/
theorem fileAt?_set_file (hp : p ≠ []) (q : List Text) :
    (d.set p (.file contents)).fileAt? q = if q = p then some contents else d.fileAt? q := by
  unfold fileAt?
  rw [get?_set d hp]
  by_cases hq : q = p <;> simp [hq]

theorem walk?_cons (h : d.IsDirectory here) :
    d.walk? here (step :: ss) = d.walk? (next here step) ss := if_pos h

theorem isDirectory_of_walk?_cons (h : d.walk? here (step :: ss) = some p) :
    d.IsDirectory here := by
  rw [walk?] at h
  split at h
  · next hhere => exact hhere
  · cases h

theorem walk?_cons_eq_some_iff :
    d.walk? here (step :: ss) = some p ↔
      d.IsDirectory here ∧ d.walk? (next here step) ss = some p := by
  constructor
  · intro h
    have hhere := isDirectory_of_walk?_cons h
    exact ⟨hhere, walk?_cons hhere ▸ h⟩
  · rintro ⟨hhere, h⟩
    rwa [walk?_cons hhere]

namespace Lawful

/-- A disk is lawful when each of its entries stands in a directory. -/
theorem of_entries (hhome : d.IsDirectory d.home)
    (h : ∀ e ∈ d.entries, d.IsDirectory e.1.dropLast) : d.Lawful := by
  refine ⟨hhome, fun p hp => ?_⟩
  rcases Decidable.em (p = []) with rfl | hne
  · exact isDirectory_root d
  · rw [get?, if_neg (by simpa using hne), ← Option.isSome_iff_ne_none,
      Option.isSome_iff_exists] at hp
    obtain ⟨entry, hentry⟩ := hp
    obtain ⟨front, back, heq, -⟩ := List.lookup_eq_some_iff.1 hentry
    exact h (p, entry) (by simp [heq])

/-- Above whatever is there stand directories. -/
theorem isDirectory_of_append (h : d.Lawful) (hss : ss ≠ []) (hp : d.get? (p ++ ss) ≠ none) :
    d.IsDirectory p := by
  induction ss generalizing p with
  | nil => exact absurd rfl hss
  | cons s ss ih =>
    have hnext : d.get? (p ++ [s]) ≠ none := by
      rcases Decidable.em (ss = []) with rfl | hne
      · exact hp
      · exact (ih hne (by rwa [List.append_assoc])).get?_ne_none
    have habove := h.above _ hnext
    rwa [List.dropLast_concat] at habove

theorem isDirectory_of_prefix (h : d.Lawful) (hp : p <+: q) (hq : d.IsDirectory q) :
    d.IsDirectory p := by
  obtain ⟨ss, rfl⟩ := hp
  rcases Decidable.em (ss = []) with rfl | hne
  · rwa [List.append_nil] at hq
  · exact h.isDirectory_of_append hne hq.get?_ne_none

theorem isDirectory_start (h : d.Lawful) (path : Text) : d.IsDirectory (d.start path) := by
  unfold start
  split
  · exact isDirectory_root d
  · exact h.home

/-- An entry is put into a directory, and takes the place of no directory. -/
theorem set (h : d.Lawful) (hp : p ≠ []) (hdirectory : d.IsDirectory p.dropLast)
    (hplace : ¬ d.IsDirectory p) : (d.set p entry).Lawful := by
  have hkeeps : ∀ q, d.IsDirectory q → (d.set p entry).IsDirectory q := by
    intro q hq
    have hne : q ≠ p := by
      rintro rfl
      exact hplace hq
    rwa [IsDirectory, get?_set d hp, if_neg hne]
  refine ⟨hkeeps _ h.home, fun q hq => ?_⟩
  rw [get?_set d hp] at hq
  split at hq
  · next heq => exact heq ▸ hkeeps _ hdirectory
  · exact hkeeps _ (h.above q hq)

end Lawful

namespace Grows

theorem refl (d : Disk) : Grows d d := ⟨rfl, fun _ h => h⟩

theorem trans {d'' : Disk} (h : Grows d d') (h' : Grows d' d'') : Grows d d'' :=
  ⟨h'.home.trans h.home, fun p hp => h'.directory p (h.directory p hp)⟩

theorem set (hp : p ≠ []) (hplace : ¬ d.IsDirectory p) : Grows d (d.set p entry) := by
  refine ⟨rfl, fun q hq => ?_⟩
  have hne : q ≠ p := by
    rintro rfl
    exact hplace hq
  rwa [IsDirectory, get?_set d hp, if_neg hne]

theorem start (h : Grows d d') (path : Text) : d'.start path = d.start path := by
  rw [Disk.start, Disk.start, h.home]

theorem place (h : Grows d d') (path : Text) : d'.place path = d.place path := by
  rw [Disk.place, Disk.place, h.start]

/-- A walk passes the same directories again. -/
theorem walk? (h : Grows d d') (hwalk : d.walk? here ss = some p) : d'.walk? here ss = some p := by
  induction ss generalizing here with
  | nil => exact hwalk
  | cons step ss ih =>
    rw [walk?_cons_eq_some_iff] at hwalk ⊢
    exact ⟨h.directory here hwalk.1, ih hwalk.2⟩

theorem leads (h : Grows d d') (hroot : d.Leads root p) : d'.Leads root p :=
  ⟨by rw [h.start]; exact h.walk? hroot.1, h.directory p hroot.2⟩

end Grows

/-! ## Walks -/

theorem walk?_append (d : Disk) (here front ss : List Text) :
    d.walk? here (front ++ ss) = (d.walk? here front).bind fun p => d.walk? p ss := by
  induction front generalizing here with
  | nil => rfl
  | cons step front ih =>
    rw [List.cons_append, walk?, walk?]
    split
    · exact ih _
    · rfl

theorem eq_foldl_of_walk? (h : d.walk? here ss = some p) : p = ss.foldl next here := by
  induction ss generalizing here with
  | nil => exact (Option.some.inj h).symm
  | cons step ss ih => exact ih (walk?_cons_eq_some_iff.1 h).2

/-- Where a walk goes on, or where it ends at a directory, it is in a directory. -/
theorem isDirectory_of_walk? (h : d.walk? here ss = some p) (hp : d.IsDirectory p) :
    d.IsDirectory here := by
  cases ss with
  | nil => exact Option.some.inj h ▸ hp
  | cons step ss => exact isDirectory_of_walk?_cons h

/-- A walk to a directory passes only directories, and does not mind the steps that stay. -/
theorem walk?_filter (hp : d.IsDirectory p) :
    d.walk? here (ss.filter (· ≠ ['.'])) = some p ↔ d.walk? here ss = some p := by
  induction ss generalizing here with
  | nil => rfl
  | cons step ss ih =>
    by_cases hstep : step = ['.']
    · have hnext : next here step = here := if_pos hstep
      rw [List.filter_cons_of_neg (by simp [hstep]), ih, walk?_cons_eq_some_iff, hnext]
      exact ⟨fun hwalk => ⟨isDirectory_of_walk? hwalk hp, hwalk⟩, fun hwalk => hwalk.2⟩
    · rw [List.filter_cons_of_pos (by simp [hstep]), walk?_cons_eq_some_iff,
        walk?_cons_eq_some_iff, ih]

/-- Without steps back a place stays above what follows. -/
theorem prefix_foldl_next (hback : ['.', '.'] ∉ ss) : here <+: ss.foldl next here := by
  induction ss generalizing here with
  | nil => exact List.prefix_rfl
  | cons step ss ih =>
    have hstep : step ≠ ['.', '.'] := (List.ne_of_not_mem_cons hback).symm
    have hnext : here <+: next here step := by
      unfold next
      rw [if_neg hstep]
      split
      · exact List.prefix_rfl
      · exact List.prefix_append here [step]
    exact hnext.trans (ih (List.not_mem_of_not_mem_cons hback))

/-- Without steps back a place is extended by the names. -/
theorem foldl_next (hback : ['.', '.'] ∉ ss) :
    ss.foldl next here = here ++ ss.filter (· ≠ ['.']) := by
  induction ss generalizing here with
  | nil => simp
  | cons step ss ih =>
    have hstep : step ≠ ['.', '.'] := (List.ne_of_not_mem_cons hback).symm
    rw [List.foldl_cons, ih (List.not_mem_of_not_mem_cons hback), next, if_neg hstep]
    by_cases hdot : step = ['.'] <;> simp [hdot]

/-- Downwards a directory is found at the end of any way to it. -/
theorem Lawful.walk?_down (h : d.Lawful) (hback : ['.', '.'] ∉ ss)
    (hp : d.IsDirectory (ss.foldl next here)) : d.walk? here ss = some (ss.foldl next here) := by
  induction ss generalizing here with
  | nil => rfl
  | cons step ss ih =>
    have hhere : d.IsDirectory here := h.isDirectory_of_prefix (prefix_foldl_next hback) hp
    rw [walk?_cons hhere]
    exact ih (List.not_mem_of_not_mem_cons hback) hp

/-! ## Making directories -/

/-- A disk with directories added where nothing was, all of them among some places. -/
structure Adds (d d' : Disk) (places : List Text → Prop) : Prop where
  home : d'.home = d.home
  get? : ∀ p, d'.get? p = d.get? p ∨ d.get? p = none ∧ d'.IsDirectory p ∧ places p

namespace Adds

variable {places : List Text → Prop}

theorem refl (d : Disk) (places : List Text → Prop) : Adds d d places := ⟨rfl, fun _ => .inl rfl⟩

theorem grows (h : Adds d d' places) : Grows d d' := by
  refine ⟨h.home, fun p hp => ?_⟩
  rcases h.get? p with heq | ⟨-, hdirectory, -⟩
  · rwa [IsDirectory, heq]
  · exact hdirectory

/-- No file is touched. -/
theorem fileAt? (h : Adds d d' places) (p : List Text) : d'.fileAt? p = d.fileAt? p := by
  rcases h.get? p with heq | ⟨hnone, hdirectory, -⟩
  · rw [Disk.fileAt?, heq, Disk.fileAt?]
  · rw [hdirectory.fileAt?_eq_none, Disk.fileAt?, hnone]

end Adds

/-- The places on the way along steps. -/
def OnWay (here ss p : List Text) : Prop :=
  ∃ front, front <+: ss ∧ p = front.foldl next here

theorem OnWay.cons (h : OnWay (next here step) ss p) : OnWay here (step :: ss) p := by
  obtain ⟨front, hfront, rfl⟩ := h
  exact ⟨step :: front, List.cons_prefix_cons.2 ⟨rfl, hfront⟩, rfl⟩

theorem onWay_next (here ss : List Text) (step : Text) : OnWay here (step :: ss) (next here step) :=
  ⟨[step], List.cons_prefix_cons.2 ⟨rfl, List.nil_prefix⟩, rfl⟩

theorem ne_nil_of_get?_eq_none (h : d.get? p = none) : p ≠ [] := by
  rintro rfl
  cases h

theorem adds_makeAlong (d : Disk) (here ss : List Text) :
    Adds d (d.makeAlong here ss).2 (OnWay here ss) := by
  induction ss generalizing d here with
  | nil => exact Adds.refl d _
  | cons step ss ih =>
    have hlift {d' : Disk} (h : Adds d' (d'.makeAlong (next here step) ss).2
        (OnWay (next here step) ss)) (hhome : d'.home = d.home)
        (hget : ∀ p, d'.get? p = d.get? p ∨
          d.get? p = none ∧ d'.IsDirectory p ∧ p = next here step) :
        Adds d (d'.makeAlong (next here step) ss).2 (OnWay here (step :: ss)) := by
      refine ⟨h.home.trans hhome, fun p => ?_⟩
      rcases hget p with heq | ⟨hnone, hdirectory, rfl⟩
      · rw [← heq]
        exact (h.get? p).imp_right fun ⟨hnone, hdirectory, hway⟩ => ⟨hnone, hdirectory, hway.cons⟩
      · exact .inr ⟨hnone, h.grows.directory _ hdirectory, onWay_next here ss step⟩
    rw [makeAlong]
    split
    · exact hlift (ih d _) rfl fun p => .inl rfl
    · exact Adds.refl d _
    · next hnone =>
      split
      · refine hlift (ih _ _) rfl fun p => ?_
        rw [IsDirectory, get?_set d (ne_nil_of_get?_eq_none hnone)]
        split
        · next heq => exact .inr ⟨heq ▸ hnone, rfl, heq⟩
        · exact .inl rfl
      · exact Adds.refl d _

/-- Where a step leads from a directory to nothing, it names an entry of it. -/
theorem Lawful.next_eq (h : d.Lawful) (hhere : d.IsDirectory here)
    (hnone : d.get? (next here step) = none) : next here step = here ++ [step] := by
  unfold next at hnone ⊢
  split at hnone
  · rw [hhere] at hnone
    cases hnone
  · split at hnone
    · rw [h.above here hhere.get?_ne_none] at hnone
      cases hnone
    · next hdot hback => rw [if_neg hdot, if_neg hback]

theorem Lawful.makeAlong (h : d.Lawful) (hhere : d.IsDirectory here) (ss : List Text) :
    (d.makeAlong here ss).2.Lawful := by
  induction ss generalizing d here with
  | nil => exact h
  | cons step ss ih =>
    rw [Disk.makeAlong]
    split
    · next hnext => exact ih h hnext
    · exact h
    · next hnone =>
      split
      · have hne := ne_nil_of_get?_eq_none hnone
        have habove : d.IsDirectory (next here step).dropLast := by
          rwa [h.next_eq hhere hnone, List.dropLast_concat]
        have hplace : ¬ d.IsDirectory (next here step) := fun hp => hp.get?_ne_none hnone
        refine ih (h.set hne habove hplace) ?_
        rw [IsDirectory, get?_set d hne, if_pos rfl]
      · exact h

/-- Where all directories are made, the way leads to the last of them. -/
theorem walk?_makeAlong (hhere : d.IsDirectory here) (h : (d.makeAlong here ss).1 = true) :
    (d.makeAlong here ss).2.walk? here ss = some (ss.foldl next here) ∧
      (d.makeAlong here ss).2.IsDirectory (ss.foldl next here) := by
  induction ss generalizing d here with
  | nil => exact ⟨rfl, hhere⟩
  | cons step ss ih =>
    have hgrows := (adds_makeAlong d here (step :: ss)).grows
    rw [walk?_cons (hgrows.directory here hhere)]
    rw [makeAlong] at h ⊢
    split at h
    · next hnext => exact ih hnext h
    · cases h
    · next hnone =>
      split at h
      · next hname =>
        rw [if_pos hname]
        refine ih ?_ h
        rw [IsDirectory, get?_set d (ne_nil_of_get?_eq_none hnone), if_pos rfl]
      · cases h

/-- Where the first directories are there, making goes on behind them. -/
theorem makeAlong_append (h : d.walk? here front = some p) (hp : d.IsDirectory p)
    (ss : List Text) : d.makeAlong here (front ++ ss) = d.makeAlong p ss := by
  induction front generalizing here with
  | nil => rw [← Option.some.inj h, List.nil_append]
  | cons step front ih =>
    have hrest := (walk?_cons_eq_some_iff.1 h).2
    have hnext : d.get? (next here step) = some .directory := isDirectory_of_walk? hrest hp
    rw [List.cons_append, makeAlong, hnext]
    exact ih hrest

/-- Directories can be made where no file is in the way and the names can be held. -/
theorem makeAlong_succeeds (hway : ∀ p, OnWay here ss p → d.fileAt? p = none)
    (hnames : ∀ step ∈ ss, isName step = true) : (d.makeAlong here ss).1 = true := by
  induction ss generalizing d here with
  | nil => rfl
  | cons step ss ih =>
    have hrest : ∀ s ∈ ss, isName s = true := fun s hs => hnames s (List.mem_cons_of_mem _ hs)
    rw [makeAlong]
    split
    · exact ih (fun p hp => hway p hp.cons) hrest
    · next contents hfile =>
      have hnone := hway _ (onWay_next here ss step)
      rw [fileAt?_eq_some_iff.2 hfile] at hnone
      cases hnone
    · next hnone =>
      rw [if_pos (hnames step (List.mem_cons_self ..))]
      refine ih (fun p hp => ?_) hrest
      have hfile := hway p hp.cons
      unfold fileAt? at hfile ⊢
      rw [get?_set d (ne_nil_of_get?_eq_none hnone)]
      by_cases heq : p = next here step <;> simp [heq, hfile]

theorem adds_makeDirs (d : Disk) (path : Text) :
    Adds d (d.makeDirs path).2 (OnWay (d.start path) (steps path)) := by
  unfold makeDirs
  split
  · exact Adds.refl d _
  · exact adds_makeAlong d _ _

theorem Lawful.makeDirs (h : d.Lawful) (path : Text) : (d.makeDirs path).2.Lawful := by
  unfold Disk.makeDirs
  split
  · exact h
  · exact h.makeAlong (h.isDirectory_start path) _

/-! ## Writing -/

/-- A path at which a file can be written. -/
structure Writable (d : Disk) (path : Text) : Prop where
  admitted : isAdmitted path = true
  noSlash : endsInSlash path = false
  last : ∃ name, (steps path).getLast? = some name ∧ name ≠ ['.'] ∧ name ≠ ['.', '.']
  walk : d.walk? (d.start path) (steps path).dropLast = some (d.place path).dropLast
  above : d.IsDirectory (d.place path).dropLast
  free : ¬ d.IsDirectory (d.place path)

/-- A path that ends in a name leads to an entry of that name. -/
theorem place_eq_append (d : Disk) (hlast : (steps path).getLast? = some name)
    (hdot : name ≠ ['.']) (hback : name ≠ ['.', '.']) :
    d.place path = (steps path).dropLast.foldl next (d.start path) ++ [name] := by
  obtain ⟨front, hfront⟩ := List.getLast?_eq_some_iff.1 hlast
  rw [place, hfront, List.foldl_append, List.dropLast_concat]
  simp [next, hdot, hback]

/-- A file is written only where one can be, and only there the disk changes. -/
theorem writable_of_write? (h : d.write? path contents = some d') :
    d.Writable path ∧ d' = d.set (d.place path) (.file contents) := by
  unfold write? at h
  split at h
  · next name hadmitted hlast =>
    obtain ⟨hadmitted, hslash⟩ := Bool.and_eq_true_iff.1 hadmitted
    split at h
    · cases h
    · next hname =>
      obtain ⟨hdot, hback⟩ := not_or.1 hname
      have hplace := place_eq_append d hlast hdot hback
      split at h
      · cases h
      · next p hwalk =>
        have hp : p = (d.place path).dropLast := by
          rw [hplace, List.dropLast_concat, eq_foldl_of_walk? hwalk]
        have hentry : p ++ [name] = d.place path := by
          rw [hplace, eq_foldl_of_walk? hwalk]
        rw [hentry, hp] at h
        split at h
        · cases h
        · next hgood =>
          obtain ⟨hdirectory, hfree⟩ := not_or.1 hgood
          refine ⟨⟨hadmitted, by simpa using hslash, ⟨name, hlast, hdot, hback⟩, hp ▸ hwalk,
            Decidable.of_not_not hdirectory, hfree⟩, (Option.some.inj h).symm⟩
  · cases h

namespace Writable

theorem place_ne_nil (h : d.Writable path) : d.place path ≠ [] := by
  obtain ⟨name, hlast, hdot, hback⟩ := h.last
  rw [place_eq_append d hlast hdot hback]
  simp

theorem walk_place (h : d.Writable path) :
    d.walk? (d.start path) (steps path) = some (d.place path) := by
  obtain ⟨name, hlast, hdot, hback⟩ := h.last
  obtain ⟨front, hfront⟩ := List.getLast?_eq_some_iff.1 hlast
  have hwalk := h.walk
  rw [hfront, List.dropLast_concat] at hwalk
  have hnext : next (d.place path).dropLast name = d.place path := by
    rw [next, if_neg hdot, if_neg hback, place_eq_append d hlast hdot hback, List.dropLast_concat]
  rw [hfront, walk?_append, hwalk, Option.bind_some, walk?_cons h.above, hnext]
  rfl

/-- Where a file can be written, it is. -/
theorem write?_eq (h : d.Writable path) (contents : Text) :
    d.write? path contents = some (d.set (d.place path) (.file contents)) := by
  obtain ⟨name, hlast, hdot, hback⟩ := h.last
  have hplace : (d.place path).dropLast ++ [name] = d.place path := by
    rw [place_eq_append d hlast hdot hback, List.dropLast_concat]
  have habove : d.get? (d.place path).dropLast = some .directory := h.above
  have hfree : d.get? (d.place path) ≠ some .directory := h.free
  rw [Disk.write?, h.admitted, h.noSlash, hlast]
  simp [hdot, hback, h.walk, hplace, habove, hfree]

/-- What stands at the place is found along the path. -/
theorem entryAt? (h : d.Writable path) : d.entryAt? path = d.get? (d.place path) := by
  rw [Disk.entryAt?, if_pos h.admitted, h.walk_place, Option.bind_some, h.noSlash]
  split
  · next heq => rw [heq]; rfl
  · rfl

theorem isPresent (h : d.Writable path) : d.isPresent path = (d.get? (d.place path)).isSome := by
  rw [Disk.isPresent, h.entryAt?]

theorem grows (h : d.Writable path) : Grows d (d.set (d.place path) entry) :=
  Grows.set h.place_ne_nil h.free

theorem lawful (h : d.Writable path) (hd : d.Lawful) : (d.set (d.place path) entry).Lawful :=
  hd.set h.place_ne_nil h.above h.free

/-- What is written is read again. -/
theorem read?_set (h : d.Writable path) :
    (d.set (d.place path) (.file contents)).read? path = some contents := by
  have hget : (d.set (d.place path) (.file contents)).get? (d.place path) =
      some (.file contents) := by rw [get?_set d h.place_ne_nil, if_pos rfl]
  have hentry : (d.set (d.place path) (.file contents)).entryAt? path = some (.file contents) := by
    rw [Disk.entryAt?, if_pos h.admitted, h.grows.start, h.grows.walk? h.walk_place,
      Option.bind_some, hget]
    simp [h.noSlash]
  rw [read?, hentry]

end Writable

/-- Nothing is found where nothing is. -/
theorem isPresent_of_get?_eq_none (h : d.get? (d.place path) = none) :
    d.isPresent path = false := by
  rw [isPresent, entryAt?]
  split
  · cases hwalk : d.walk? (d.start path) (steps path) with
    | none => rfl
    | some p =>
      rw [Option.bind_some, eq_foldl_of_walk? hwalk, ← place, h]
      rfl
  · rfl

/-- A path that leads downwards behind a part that leads to a directory. -/
def Downward (d : Disk) (path : Text) : Prop :=
  ∃ front rest p, steps path = front ++ rest ∧ d.walk? (d.start path) front = some p ∧
    d.IsDirectory p ∧ ['.', '.'] ∉ rest

/-- Downwards a file is found at the end of any way to it: where a path could be written
with more directories, and its place is taken, it can be written as it is. -/
theorem Lawful.writable_of_grows (h : d.Lawful) (hdown : d.Downward path) (hgrows : Grows d d')
    (hwritable : d'.Writable path) (hp : d.get? (d.place path) ≠ none) : d.Writable path := by
  have hplace := hgrows.place path
  have habove := h.above _ hp
  have hfree : ¬ d.IsDirectory (d.place path) := by
    intro hdirectory
    exact hwritable.free (hplace ▸ hgrows.directory _ hdirectory)
  refine ⟨hwritable.admitted, hwritable.noSlash, hwritable.last, ?_, habove, hfree⟩
  obtain ⟨name, hlast, hdot, hnback⟩ := hwritable.last
  obtain ⟨front, rest, p, hsteps, hwalk, hdirectory, hback⟩ := hdown
  have hrest : rest ≠ [] := by
    -- Otherwise the place would be the directory at which the first part ends.
    rintro rfl
    rw [List.append_nil] at hsteps
    refine hfree ?_
    rwa [place, hsteps, ← eq_foldl_of_walk? hwalk]
  have heq : (d.place path).dropLast = rest.dropLast.foldl next p := by
    rw [place_eq_append d hlast hdot hnback, List.dropLast_concat, hsteps,
      List.dropLast_append_of_ne_nil hrest, List.foldl_append, ← eq_foldl_of_walk? hwalk]
  rw [hsteps, List.dropLast_append_of_ne_nil hrest, walk?_append, hwalk, Option.bind_some, heq]
  refine h.walk?_down ?_ (heq ▸ habove)
  exact fun hmem => hback (List.dropLast_subset _ hmem)

end Stencil.Disk
