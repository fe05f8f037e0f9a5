import Mathlib.Data.List.Nodup
import SchemaLedger.FileTree

/-!
# Looking up files

A path to a directory and the name of a file in it make up the path of that file, however the
first is written. So a file that a directory lists is the one that is read by its path. New
entries in places where there was nothing leave all that as it was: what was found is found as
before, and a directory lists a new file besides what it listed already.
-/

namespace SchemaLedger

/-- A name that a file in a directory can have. -/
structure FileName.Proper (file : String) : Prop where
  plain : '/' ∉ file.toList
  nonempty : file ≠ ""
  notHere : file ≠ "."
  notAbove : file ≠ ".."

instance FileName.Proper.decidable (file : String) : Decidable (FileName.Proper file) :=
  decidable_of_iff ('/' ∉ file.toList ∧ file ≠ "" ∧ file ≠ "." ∧ file ≠ "..")
    ⟨fun ⟨plain, nonempty, notHere, notAbove⟩ => ⟨plain, nonempty, notHere, notAbove⟩,
      fun ⟨plain, nonempty, notHere, notAbove⟩ => ⟨plain, nonempty, notHere, notAbove⟩⟩

/-! ## Paths -/

namespace Path

variable {p : Path} {file : String}

theorem not_isIdle (proper : FileName.Proper file) : isIdle file.toList = false := by
  have hempty : file.toList ≠ [] := fun h => proper.nonempty (String.toList_eq_nil_iff.1 h)
  have hhere : file.toList ≠ ['.'] := fun h => proper.notHere (String.toList_injective h)
  simp [isIdle, hempty, hhere]

/-- The parts of the path of a file are those of its directory and the file, but for the idle
part that is left of a slash at the end. -/
theorem split_join (p : Path) (proper : FileName.Proper file) :
    ∃ parts, split (p.join file).text.toList = parts ++ [file.toList] ∧
      parts.filter (!isIdle ·) = (split p.text.toList).filter (!isIdle ·) := by
  have hrelative : isAbsolute ⟨file⟩ = false := by
    refine decide_eq_false fun h => proper.plain ?_
    exact List.mem_of_head? h
  have hfile : split file.toList = [file.toList] := Text.splitAt_of_notMem proper.plain
  rw [join, hrelative, if_neg (by decide)]
  split
  · next c hlast =>
      split
      · next hc =>
          obtain ⟨front, hfront⟩ : ∃ front, p.text.toList = front ++ ['/'] :=
            List.getLast?_eq_some_iff.1 (hc ▸ hlast)
          refine ⟨split front, ?_, ?_⟩
          · rw [String.toList_append, hfront, List.append_assoc, split]
            exact (Text.splitAt_append_mark '/' front file.toList).trans
              (by rw [split, ← hfile]; rfl)
          · rw [hfront, split, split, Text.splitAt_append_mark, List.filter_append]
            exact (List.append_nil _).symm
      · refine ⟨split p.text.toList, ?_, rfl⟩
        rw [String.toList_append, String.toList_append, List.append_assoc, split]
        exact (Text.splitAt_append_mark '/' _ file.toList).trans (by rw [split, ← hfile]; rfl)
  · next hempty =>
      rw [List.getLast?_eq_none_iff.1 hempty]
      exact ⟨[], hfile, rfl⟩

theorem steps_join (p : Path) (proper : FileName.Proper file) :
    (p.join file).steps = p.steps ++ [file] := by
  obtain ⟨parts, hsplit, hparts⟩ := split_join p proper
  rw [steps, hsplit, List.filter_append, hparts, List.map_append, steps]
  simp [not_isIdle proper]

theorem demandsDirectory_join (p : Path) (proper : FileName.Proper file) :
    (p.join file).demandsDirectory = false := by
  obtain ⟨parts, hsplit, -⟩ := split_join p proper
  rw [demandsDirectory, hsplit, List.getLast?_concat]
  exact not_isIdle proper

theorem isAbsolute_join (p : Path) (proper : FileName.Proper file) :
    (p.join file).isAbsolute = p.isAbsolute := by
  have hrelative : isAbsolute ⟨file⟩ = false := by
    refine decide_eq_false fun h => proper.plain ?_
    exact List.mem_of_head? h
  rw [join, hrelative, if_neg (by decide)]
  split
  · next c hlast =>
      have hne : p.text.toList ≠ [] := fun h => by
        rw [h] at hlast
        cases hlast
      obtain ⟨first, rest, hcons⟩ := List.exists_cons_of_ne_nil hne
      split <;> simp [isAbsolute, hcons]
  · next hempty =>
      rw [hrelative, isAbsolute, List.getLast?_eq_none_iff.1 hempty]
      rfl

theorem text_join_ne (p : Path) (proper : FileName.Proper file) : (p.join file).text ≠ "" := by
  intro h
  have hsteps := steps_join p proper
  rw [steps, h] at hsteps
  exact absurd hsteps.symm (by simp [split, Text.splitAt, isIdle])

theorem proper_of_mem_steps {p : Path} {part : String} (h : part ∈ p.steps)
    (notAbove : part ≠ "..") : FileName.Proper part := by
  obtain ⟨chars, hchars, rfl⟩ := List.mem_map.1 h
  obtain ⟨hsplit, hidle⟩ := List.mem_filter.1 hchars
  have hparts : chars ≠ [] ∧ chars ≠ ['.'] := by
    simpa [isIdle] using hidle
  refine ⟨?_, fun h => hparts.1 ?_, fun h => hparts.2 ?_, notAbove⟩
  · rw [String.toList_ofList]
    exact Text.notMem_of_mem_splitAt hsplit
  · simpa using congrArg String.toList h
  · simpa using congrArg String.toList h

end Path

/-! ## Trees -/

/-- Where no key occurs twice, looking one up finds what stands there for it. -/
theorem lookup_eq_some_iff_mem {α β : Type} [BEq α] [LawfulBEq α] {l : List (α × β)}
    (distinct : (l.map (·.1)).Nodup) {a : α} {b : β} : l.lookup a = some b ↔ (a, b) ∈ l := by
  rw [List.lookup_eq_some_iff]
  constructor
  · rintro ⟨before, after, rfl, -⟩
    simp
  · intro h
    obtain ⟨before, after, rfl⟩ := List.append_of_mem h
    refine ⟨before, after, rfl, fun p hp => ?_⟩
    rw [List.map_append, List.map_cons, List.nodup_append] at distinct
    exact bne_iff_ne.2 fun heq =>
      distinct.2.2 p.1 (List.mem_map_of_mem hp) a List.mem_cons_self heq.symm

theorem lookup_eq_of_perm {α β : Type} [BEq α] [LawfulBEq α] {l l' : List (α × β)}
    (distinct : (l.map (·.1)).Nodup) (perm : l'.Perm l) (a : α) : l'.lookup a = l.lookup a := by
  refine Option.ext fun b => ?_
  rw [lookup_eq_some_iff_mem distinct,
    lookup_eq_some_iff_mem ((perm.map (·.1)).nodup_iff.2 distinct), perm.mem_iff]

namespace FileTree

variable {t t' : FileTree} {p : Path} {l place : Location} {file text : String} {e : Entry}

theorem walk_append (t : FileTree) (l : Location) (xs ys : List String) :
    t.walk l (xs ++ ys) = (t.walk l xs).bind (t.walk · ys) := by
  induction xs generalizing l with
  | nil => rfl
  | cons name rest ih =>
      rw [List.cons_append, walk, walk]
      cases t.get? l with
      | none => rfl
      | some e =>
          cases e with
          | directory => exact ih _
          | file text => rfl
          | binary => rfl

theorem text_ne_of_locate (h : t.locate p = .ok place) : p.text ≠ "" := by
  intro hp
  rw [locate, hp] at h
  cases h

theorem find_of_locate (h : t.locate p = .ok place) : t.find p =
    match t.get? place with
    | some .directory => .ok .directory
    | some e => if p.demandsDirectory then .error .notDirectory else .ok e
    | none => .error .notFound := by
  rw [find, h]
  rfl

theorem isDirectory_iff :
    t.isDirectory p = true ↔ ∃ place, t.locate p = .ok place ∧ t.get? place = some .directory := by
  unfold isDirectory
  cases hlocate : t.locate p with
  | error fault =>
      have hfind : t.find p = .error fault := by
        rw [find, hlocate]
        rfl
      simp [hfind]
  | ok place =>
      rw [find_of_locate hlocate]
      cases hget : t.get? place with
      | none => simp [hget]
      | some e =>
          cases e with
          | directory => simp [hget]
          | file text => cases hdemand : p.demandsDirectory <;> simp [hget]
          | binary => cases hdemand : p.demandsDirectory <;> simp [hget]

/-- The location of a path, where one without any text leads to the current directory. -/
def reach (t : FileTree) (p : Path) : Except IoFault Location :=
  t.walk (if p.isAbsolute then [] else t.current) p.steps

theorem reach_of_locate (h : t.locate p = .ok place) : t.reach p = .ok place := by
  rwa [locate, if_neg (by simpa using text_ne_of_locate h)] at h

/-- A file has a location if its directory is one. -/
theorem locate_join_eq_ok_iff (proper : FileName.Proper file) : t.locate (p.join file) = .ok l ↔
    ∃ place, t.reach p = .ok place ∧ t.get? place = some .directory ∧ l = place ++ [file] := by
  rw [locate, if_neg (by simpa using Path.text_join_ne p proper), Path.isAbsolute_join p proper,
    Path.steps_join p proper, walk_append, ← reach]
  cases t.reach p with
  | error fault => simp [Except.bind]
  | ok place =>
      rw [Except.bind, walk]
      cases hget : t.get? place with
      | none => simp [hget]
      | some e =>
          cases e with
          | directory =>
              simp only [if_neg proper.notAbove, walk, Except.ok.injEq]
              constructor
              · rintro rfl
                exact ⟨place, rfl, hget, rfl⟩
              · rintro ⟨_, rfl, -, rfl⟩
                rfl
          | file text => simp [hget]
          | binary => simp [hget]

/-- A file in a directory is found by the path that is put together of the two. -/
theorem locate_join (hplace : t.locate p = .ok place) (hdir : t.get? place = some .directory)
    (proper : FileName.Proper file) : t.locate (p.join file) = .ok (place ++ [file]) :=
  (locate_join_eq_ok_iff proper).2 ⟨place, reach_of_locate hplace, hdir, rfl⟩

theorem find_join (hplace : t.locate p = .ok place) (hdir : t.get? place = some .directory)
    (proper : FileName.Proper file) (he : t.get? (place ++ [file]) = some e) :
    t.find (p.join file) = .ok e := by
  rw [find_of_locate (locate_join hplace hdir proper), he,
    Path.demandsDirectory_join p proper]
  cases e <;> rfl

theorem read_join (hplace : t.locate p = .ok place)
    (hdir : t.get? place = some .directory) (proper : FileName.Proper file)
    (he : t.get? (place ++ [file]) = some (.file text)) : t.read (p.join file) = .ok text := by
  rw [read, find_join hplace hdir proper he]
  rfl

/-- The name under which a directory lists an entry that is in it. -/
def listed? (l : Location) (entry : Location × Entry) : Option (String × Entry) :=
  match entry.1.getLast? with
  | some name => if entry.1.dropLast = l then some (name, entry.2) else none
  | none => none

theorem listed?_eq_some_iff {entry : Location × Entry} :
    listed? l entry = some (file, e) ↔ entry = (l ++ [file], e) := by
  constructor
  · intro h
    unfold listed? at h
    split at h
    · next name hlast =>
        split at h
        · next hfront =>
            obtain ⟨front, hplace⟩ := List.getLast?_eq_some_iff.1 hlast
            rw [hplace, List.dropLast_concat] at hfront
            obtain ⟨rfl, rfl⟩ := Prod.mk.inj (Option.some.inj h)
            exact Prod.ext (by rw [hplace, hfront]) rfl
        · cases h
    · cases h
  · rintro rfl
    simp [listed?]

theorem list_eq (t : FileTree) (l : Location) :
    t.list l = (t.entries.filterMap (listed? l)).mergeSort fun a b => decide (a.1 ≤ b.1) := rfl

theorem mem_list : (file, e) ∈ t.list l ↔ (l ++ [file], e) ∈ t.entries := by
  rw [list_eq, List.mem_mergeSort, List.mem_filterMap]
  simp only [listed?_eq_some_iff, exists_eq_right]

/-- A tree holds one entry in a place, and has no names in it that no file can have. -/
structure Proper (t : FileTree) : Prop where
  distinct : (t.entries.map (·.1)).Nodup
  named : ∀ entry ∈ t.entries, ∀ part ∈ entry.1, FileName.Proper part

theorem Proper.get?_of_mem_list (proper : t.Proper) (h : (file, e) ∈ t.list l) :
    t.get? (l ++ [file]) = some e := by
  rw [get?, if_neg (by simp)]
  exact (lookup_eq_some_iff_mem proper.distinct).2 (mem_list.1 h)

theorem Proper.of_mem_list (proper : t.Proper) (h : (file, e) ∈ t.list l) :
    FileName.Proper file :=
  proper.named _ (mem_list.1 h) file (by simp)

theorem Proper.nodup_list (proper : t.Proper) (l : Location) : ((t.list l).map (·.1)).Nodup := by
  refine List.Nodup.map_on (fun a ha b hb hname => ?_) ?_
  · obtain ⟨file, e⟩ := a
    obtain ⟨file', e'⟩ := b
    obtain rfl : file = file' := hname
    have he := proper.get?_of_mem_list ha
    rw [proper.get?_of_mem_list hb] at he
    rw [Option.some.inj he]
  · rw [list_eq, (List.mergeSort_perm _ _).nodup_iff]
    refine List.Nodup.filterMap (fun a b c ha hb => ?_) proper.distinct.of_map
    rw [listed?_eq_some_iff.1 ha, listed?_eq_some_iff.1 hb]

/-! ## More entries -/

/-- What is in the first tree is in the second one as well. -/
structure Keeps (t t' : FileTree) : Prop where
  current : t'.current = t.current
  entries : ∀ {l e}, t.get? l = some e → t'.get? l = some e

theorem Keeps.walk (h : t.Keeps t') {xs : List String} (hwalk : t.walk l xs = .ok place) :
    t'.walk l xs = .ok place := by
  induction xs generalizing l with
  | nil => exact hwalk
  | cons name rest ih =>
      rw [FileTree.walk] at hwalk ⊢
      cases hget : t.get? l with
      | none => rw [hget] at hwalk; cases hwalk
      | some e =>
          rw [hget] at hwalk
          rw [h.entries hget]
          cases e with
          | directory => exact ih hwalk
          | file text => cases hwalk
          | binary => cases hwalk

theorem Keeps.reach (h : t.Keeps t') (hplace : t.reach p = .ok place) : t'.reach p = .ok place := by
  unfold FileTree.reach at hplace ⊢
  rw [h.current, h.walk hplace]

theorem Keeps.locate (h : t.Keeps t') (hplace : t.locate p = .ok place) :
    t'.locate p = .ok place := by
  unfold FileTree.locate at hplace ⊢
  split at hplace
  · cases hplace
  · next hp => rw [if_neg hp, ← FileTree.reach, h.reach hplace]

/-- The entry that is put where there was nothing comes before the others. -/
theorem put_of_fresh (fresh : t.get? l = none) (e : Entry) :
    t.put l e = { t with entries := (l, e) :: t.entries } := by
  rw [put, List.filter_eq_self.2]
  rintro ⟨place, e⟩ hmem
  refine decide_eq_true fun (heq : place = l) => ?_
  unfold FileTree.get? at fresh
  split at fresh
  · cases fresh
  · exact absurd (List.lookup_eq_none_iff.1 fresh _ hmem) (by simp [heq])

theorem ne_nil_of_fresh (fresh : t.get? l = none) : l ≠ [] := by
  rintro rfl
  cases fresh

theorem get?_put (fresh : t.get? l = none) (e : Entry) : (t.put l e).get? l = some e := by
  rw [put_of_fresh fresh, FileTree.get?, if_neg (ne_nil_of_fresh fresh), List.lookup_cons_self]

theorem get?_put_of_ne (fresh : t.get? l = none) (e : Entry) (hne : place ≠ l) :
    (t.put l e).get? place = t.get? place := by
  rw [put_of_fresh fresh, FileTree.get?, FileTree.get?, List.lookup_cons, beq_false_of_ne hne]

theorem Keeps.of_put (fresh : t.get? l = none) (e : Entry) : t.Keeps (t.put l e) := by
  refine ⟨rfl, fun {place e'} he => ?_⟩
  have hne : place ≠ l := fun heq => by
    rw [heq, fresh] at he
    cases he
  rw [get?_put_of_ne fresh e hne, he]

/-- A directory lists the new entry besides those it listed before. -/
theorem list_put_perm (fresh : t.get? (place ++ [file]) = none) (e : Entry) :
    ((t.put (place ++ [file]) e).list place).Perm ((file, e) :: t.list place) := by
  have hlisted : listed? place (place ++ [file], e) = some (file, e) :=
    listed?_eq_some_iff.2 rfl
  rw [list_eq, list_eq, put_of_fresh fresh, List.filterMap_cons_some hlisted]
  exact (List.mergeSort_perm _ _).trans ((List.mergeSort_perm _ _).symm.cons _)

theorem Proper.put (proper : t.Proper) (fresh : t.get? l = none)
    (named : ∀ part ∈ l, FileName.Proper part) (e : Entry) : (t.put l e).Proper := by
  rw [put_of_fresh fresh]
  refine ⟨?_, List.forall_mem_cons.2 ⟨named, proper.named⟩⟩
  rw [List.map_cons, List.nodup_cons]
  refine ⟨fun hmem => ?_, proper.distinct⟩
  obtain ⟨⟨_, e'⟩, hentry, rfl⟩ := List.mem_map.1 hmem
  rw [FileTree.get?, if_neg (ne_nil_of_fresh fresh),
    (lookup_eq_some_iff_mem proper.distinct).2 hentry] at fresh
  cases fresh

/-- All directories above an entry that is there have names that files can have. -/
theorem Proper.named_of_get? (proper : t.Proper) (he : t.get? l = some e) :
    ∀ part ∈ l, FileName.Proper part := by
  unfold FileTree.get? at he
  split at he
  · next hl =>
      rw [hl]
      exact fun _ hmem => nomatch hmem
  · exact proper.named _ ((lookup_eq_some_iff_mem proper.distinct).1 he)

/-! ## New directories -/

/-- The second tree has some directories that the first one does not have. -/
structure Grown (t t' : FileTree) : Prop where
  current : t'.current = t.current
  entries : ∃ made : List Location, t'.entries = made.map (·, .directory) ++ t.entries ∧
    ∀ l ∈ made, t.get? l = none

theorem Grown.refl (t : FileTree) : t.Grown t := ⟨rfl, [], rfl, by simp⟩

/-- In a place there is what was there before, or a directory where there was nothing. -/
theorem Grown.get?_cases (h : t.Grown t') (l : Location) :
    t'.get? l = t.get? l ∨ t.get? l = none ∧ t'.get? l = some .directory := by
  obtain ⟨made, hentries, fresh⟩ := h.entries
  by_cases hl : l = []
  · exact .inl (by rw [FileTree.get?, FileTree.get?, if_pos hl, if_pos hl])
  rw [FileTree.get?, if_neg hl, hentries, List.lookup_append]
  cases hmade : (made.map (·, Entry.directory)).lookup l with
  | none => exact .inl (by rw [Option.none_or, FileTree.get?, if_neg hl])
  | some e =>
      obtain ⟨before, after, hsplit, -⟩ := List.lookup_eq_some_iff.1 hmade
      obtain ⟨place, hplace, heq⟩ := List.mem_map.1 (show (l, e) ∈ _ by rw [hsplit]; simp)
      cases heq
      exact .inr ⟨fresh _ hplace, rfl⟩

theorem Grown.keeps (h : t.Grown t') : t.Keeps t' := by
  refine ⟨h.current, fun {l e} he => ?_⟩
  rcases h.get?_cases l with hsame | ⟨hnone, -⟩
  · rw [hsame, he]
  · rw [he] at hnone
    cases hnone

theorem Grown.trans {t'' : FileTree} (h : t.Grown t') (h' : t'.Grown t'') : t.Grown t'' := by
  obtain ⟨made, hentries, fresh⟩ := h.entries
  obtain ⟨made', hentries', fresh'⟩ := h'.entries
  refine ⟨h'.current.trans h.current, made' ++ made, ?_, fun l hl => ?_⟩
  · rw [hentries', hentries, List.map_append, List.append_assoc]
  · rcases List.mem_append.1 hl with hl | hl
    · rcases h.get?_cases l with hsame | ⟨hnone, -⟩
      · rw [← hsame, fresh' l hl]
      · exact hnone
    · exact fresh l hl

theorem Grown.of_put (fresh : t.get? l = none) : t.Grown (t.put l .directory) := by
  refine ⟨rfl, [l], ?_, fun place hplace => ?_⟩
  · rw [put_of_fresh fresh]
    rfl
  · rw [List.mem_singleton.1 hplace, fresh]

theorem makeDirectory_eq_ok_iff : t.makeDirectory p = .ok t' ↔ ∃ place, t.locate p = .ok place ∧
    t.get? place = none ∧ t' = t.put place .directory := by
  unfold makeDirectory
  cases hlocate : t.locate p with
  | error fault => simp [bind, Except.bind]
  | ok place =>
      cases hget : t.get? place with
      | some e => simp [bind, Except.bind, hget, throw, throwThe, MonadExceptOf.throw]
      | none => simp [bind, Except.bind, hget, pure, Except.pure, eq_comm]

theorem makeDirectory_grown (h : t.makeDirectory p = .ok t') : t.Grown t' := by
  obtain ⟨place, -, fresh, rfl⟩ := makeDirectory_eq_ok_iff.1 h
  exact .of_put fresh

theorem makeOrKeepDirectory_grown (t : FileTree) (p : Path) :
    t.Grown (t.makeOrKeepDirectory p).2 := by
  unfold makeOrKeepDirectory
  split
  · next h => exact makeDirectory_grown h
  · exact .refl t

/-- Making directories changes nothing else. -/
theorem makeDirectories_grown (t : FileTree) (p : Path) : t.Grown (t.makeDirectories p).2 := by
  fun_induction makeDirectories t p with
  | case1 p _ => exact .refl t
  | case2 p _ _ parent _ _ t' hparent ih =>
      rw [hparent] at ih
      exact ih.trans (makeOrKeepDirectory_grown t' p)
  | case3 p _ _ parent _ _ _ ih => exact ih
  | case4 p _ _ parent _ _ => exact .refl t
  | case5 p _ _ _ => exact .refl t
  | case6 p _ _ => exact makeOrKeepDirectory_grown t p

/-- Going up and into directories leads to places that have proper names. -/
theorem named_of_walk {xs : List String} (named : ∀ part ∈ l, FileName.Proper part)
    (steps : ∀ part ∈ xs, part ≠ ".." → FileName.Proper part) (h : t.walk l xs = .ok place) :
    ∀ part ∈ place, FileName.Proper part := by
  induction xs generalizing l with
  | nil =>
      cases h
      exact named
  | cons name rest ih =>
      obtain ⟨hname, hrest⟩ := List.forall_mem_cons.1 steps
      rw [FileTree.walk] at h
      split at h
      · refine ih ?_ hrest h
        split
        · exact fun part hpart => named part (List.dropLast_subset _ hpart)
        · next hne =>
            exact List.forall_mem_append.2 ⟨named, List.forall_mem_singleton.2 (hname hne)⟩
      · cases h
      · cases h

theorem named_of_locate (home : ∀ part ∈ t.current, FileName.Proper part)
    (h : t.locate p = .ok place) : ∀ part ∈ place, FileName.Proper part := by
  have hreach := reach_of_locate h
  refine named_of_walk (l := if p.isAbsolute then [] else t.current) ?_
    (fun part => Path.proper_of_mem_steps) hreach
  split
  · exact fun _ hpart => nomatch hpart
  · exact home

theorem makeOrKeepDirectory_proper (proper : t.Proper)
    (home : ∀ part ∈ t.current, FileName.Proper part) : (t.makeOrKeepDirectory p).2.Proper := by
  unfold makeOrKeepDirectory
  split
  · next h =>
      obtain ⟨place, hlocate, fresh, rfl⟩ := makeDirectory_eq_ok_iff.1 h
      exact proper.put fresh (named_of_locate home hlocate) _
  · exact proper

theorem makeDirectories_proper (proper : t.Proper)
    (home : ∀ part ∈ t.current, FileName.Proper part) : (t.makeDirectories p).2.Proper := by
  fun_induction makeDirectories t p with
  | case2 p _ _ parent _ _ t' hparent ih =>
      have grown := makeDirectories_grown t parent
      rw [hparent] at ih grown
      exact makeOrKeepDirectory_proper ih (grown.current ▸ home)
  | case3 p _ _ parent _ _ _ ih => exact ih
  | case6 p _ _ => exact makeOrKeepDirectory_proper proper home
  | _ => exact proper

/-- Where there is a directory, none has to be made. -/
theorem makeDirectories_of_isDirectory (h : t.isDirectory p = true) :
    t.makeDirectories p = (.ok (), t) := by
  obtain ⟨place, hplace, hdir⟩ := isDirectory_iff.1 h
  have hmake : t.makeDirectory p = .error .exists := by
    rw [makeDirectory, hplace]
    simp only [bind, Except.bind, hdir]
    rfl
  rw [makeDirectories, if_neg (by simpa using text_ne_of_locate hplace), hmake]
  simp only [makeOrKeepDirectory, hmake, h, if_true]

theorem Grown.list_perm (h : t.Grown t') (l : Location) :
    ∃ made : List String, (t'.list l).Perm (made.map (·, .directory) ++ t.list l) := by
  obtain ⟨made, hentries, -⟩ := h.entries
  refine ⟨made.filterMap fun place => (listed? l (place, .directory)).map (·.1), ?_⟩
  rw [list_eq, list_eq]
  refine (List.mergeSort_perm _ _).trans ?_
  rw [hentries, List.filterMap_append, List.filterMap_map]
  refine List.Perm.append (.of_eq ?_) (List.mergeSort_perm _ _).symm
  rw [List.map_filterMap]
  congr 1
  funext place
  rw [Function.comp_apply]
  cases hlisted : listed? l (place, .directory) with
  | none => rfl
  | some entry =>
      obtain ⟨file, e⟩ := entry
      obtain rfl : Entry.directory = e := congrArg Prod.snd (listed?_eq_some_iff.1 hlisted)
      rfl

/-! ## Writing files -/

theorem makeDirectories_of_reach (hplace : t.reach p = .ok place)
    (hdir : t.get? place = some .directory) : t.makeDirectories p = (.ok (), t) := by
  by_cases hp : p.text.isEmpty = true
  · rw [makeDirectories, if_pos hp]
  · refine makeDirectories_of_isDirectory (isDirectory_iff.2 ⟨place, ?_, hdir⟩)
    rwa [locate, if_neg hp]

/-- A file that is there lies in a directory. -/
theorem exists_reach_of_has (proper : FileName.Proper file) (h : t.has (p.join file) = true) :
    ∃ place, t.reach p = .ok place ∧ t.get? place = some .directory := by
  cases hlocate : t.locate (p.join file) with
  | error fault =>
      rw [has, find, hlocate] at h
      cases h
  | ok l =>
      obtain ⟨place, hplace, hdir, -⟩ := (locate_join_eq_ok_iff proper).1 hlocate
      exact ⟨place, hplace, hdir⟩

theorem get?_of_not_has (proper : FileName.Proper file)
    (hlocate : t.locate (p.join file) = .ok place) (h : t.has (p.join file) = false) :
    t.get? place = none := by
  rw [has, find_of_locate hlocate, Path.demandsDirectory_join p proper] at h
  cases hget : t.get? place with
  | none => rfl
  | some e => cases e <;> simp [hget] at h

/-- Where there is no file of a name, writing it puts one into the directory. -/
theorem write_join_of_not_has (proper : FileName.Proper file) (h : t.has (p.join file) = false)
    (written : t.write (p.join file) text = .ok t') :
    ∃ place, t.reach p = .ok place ∧ t.get? place = some .directory ∧
      t.get? (place ++ [file]) = none ∧ t' = t.put (place ++ [file]) (.file text) := by
  cases hlocate : t.locate (p.join file) with
  | error fault =>
      rw [write, hlocate] at written
      cases written
  | ok l =>
      have fresh := get?_of_not_has proper hlocate h
      obtain ⟨place, hplace, hdir, rfl⟩ := (locate_join_eq_ok_iff proper).1 hlocate
      refine ⟨place, hplace, hdir, fresh, ?_⟩
      rw [write, hlocate] at written
      simp only [bind, Except.bind, fresh, Path.demandsDirectory_join p proper] at written
      exact (Except.ok.inj written).symm

end FileTree

end SchemaLedger
