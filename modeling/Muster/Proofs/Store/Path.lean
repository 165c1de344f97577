/-
What lies under a directory. A text that begins with another is that one with something behind it, and a
directory without the slashes at its end is the directory but for slashes. To begin with the characters of
a directory and a slash is to begin with its segments, so directories are compared as lists of segments.
Main statement: `isUnder_by_segments`.
-/
import Mathlib.Data.List.DropRight
import Mathlib.Data.List.TakeWhile
import Muster.Store.Path

namespace Muster.Path

theorem afterStart_iff {p s rest : List Char} : afterStart p s = some rest ↔ s = p ++ rest := by
  induction p generalizing s with
  | nil => rw [afterStart, Option.some.injEq, List.nil_append]
  | cons a p ih =>
    cases s with
    | nil => simp [afterStart]
    | cons b s =>
      rw [afterStart]
      split
      · rename_i hab
        rw [ih, hab, List.cons_append, List.cons.injEq, eq_self, true_and]
      · rename_i hab
        simp [Ne.symm hab]

/-! ## Slashes at the end -/

/-- Nothing but slashes is cut off. -/
theorem withoutTrailingSlashes_append (cs : List Char) :
    ∃ slashes, (∀ c ∈ slashes, c = '/') ∧ cs = withoutTrailingSlashes cs ++ slashes := by
  refine ⟨(cs.reverse.takeWhile (· == '/')).reverse, ?_, ?_⟩
  · intro c hc
    simpa using List.mem_takeWhile_imp (List.mem_reverse.1 hc)
  · rw [withoutTrailingSlashes, ← List.reverse_append, List.takeWhile_append_dropWhile,
      List.reverse_reverse]

/-- All of them are cut off. -/
theorem withoutTrailingSlashes_ne (dir cs : List Char) : withoutTrailingSlashes dir ≠ cs ++ ['/'] := by
  intro h
  have hself : (cs ++ ['/']).rdropWhile (· == '/') = cs ++ ['/'] :=
    h ▸ List.rdropWhile_idempotent (· == '/') dir
  simpa using List.rdropWhile_eq_self_iff.1 hself

/-- More slashes at the end do not change what is left. -/
theorem withoutTrailingSlashes_replicate (dir : List Char) (n : Nat) :
    withoutTrailingSlashes (dir ++ List.replicate n '/') = withoutTrailingSlashes dir := by
  induction n with
  | zero => rw [List.replicate_zero, List.append_nil]
  | succ n ih =>
    rw [List.replicate_succ', ← List.append_assoc, ← ih]
    exact List.rdropWhile_concat_pos (· == '/') _ '/' rfl

/-! ## Keys and directories as texts -/

variable {dir key : List Char}

/-- Everything lies under the root; under any other directory lie the directory and what stands behind it
and a slash. -/
theorem under_iff : under dir key = true ↔ withoutTrailingSlashes dir = [] ∨
    key = withoutTrailingSlashes dir ∨ ∃ rest, key = withoutTrailingSlashes dir ++ '/' :: rest := by
  unfold under
  cases withoutTrailingSlashes dir with
  | nil => simp
  | cons c cs =>
    dsimp only
    cases hafter : afterStart (c :: cs) key with
    | none =>
      have hno (rest : List Char) : key ≠ c :: cs ++ rest := by
        intro hrest
        rw [afterStart_iff.2 hrest] at hafter
        cases hafter
      refine iff_of_false Bool.false_ne_true ?_
      rintro (hroot | hself | ⟨rest, hrest⟩)
      · cases hroot
      · exact hno [] (by rw [List.append_nil, hself])
      · exact hno ('/' :: rest) hrest
    | some rest =>
      rw [afterStart_iff.1 hafter]
      cases rest with
      | nil => simp
      | cons d rest => simp

theorem under_self (dir : List Char) : under dir dir = true := by
  obtain ⟨slashes, hslashes, hdir⟩ := withoutTrailingSlashes_append dir
  refine under_iff.2 (.inr ?_)
  cases slashes with
  | nil => exact .inl (by rwa [List.append_nil] at hdir)
  | cons c slashes =>
    obtain rfl := hslashes c List.mem_cons_self
    exact .inr ⟨slashes, hdir⟩

theorem under_dir_slashes (dir key : List Char) (n : Nat) :
    under (dir ++ List.replicate n '/') key = under dir key := by
  unfold under
  rw [withoutTrailingSlashes_replicate]

/-! ## Segments -/

/-- Segments are the pieces that the library cuts at slashes. -/
theorem segments_eq_splitOn (cs : List Char) : segments cs = cs.splitOn '/' := by
  induction cs with
  | nil => rfl
  | cons c cs ih =>
    rw [segments, List.splitOn_cons_eq_if_modifyHead, ih]
    simp only [beq_iff_eq]
    obtain ⟨s, ss, hss⟩ := List.exists_cons_of_ne_nil (List.splitOn_ne_nil '/' cs)
    rw [hss]
    rfl

theorem segments_ne_nil (cs : List Char) : segments cs ≠ [] := by
  rw [segments_eq_splitOn]
  exact List.splitOn_ne_nil '/' cs

/-- A slash ends a segment. -/
theorem segments_append (front back : List Char) :
    segments (front ++ '/' :: back) = segments front ++ segments back := by
  simp only [segments_eq_splitOn]
  exact List.splitOn_append_cons_self front back

/-- The segments with slashes between them are the text. -/
theorem intercalate_segments (cs : List Char) : List.intercalate ['/'] (segments cs) = cs := by
  rw [segments_eq_splitOn, List.intercalate_splitOn]

theorem segments_inj {as bs : List Char} : segments as = segments bs ↔ as = bs := by
  refine ⟨fun h => ?_, congrArg segments⟩
  rw [← intercalate_segments as, h, intercalate_segments]

theorem intercalate_append {α : Type} (sep : List α) {xs ys : List (List α)} (hxs : xs ≠ [])
    (hys : ys ≠ []) :
    List.intercalate sep (xs ++ ys) = List.intercalate sep xs ++ sep ++ List.intercalate sep ys := by
  induction xs with
  | nil => exact absurd rfl hxs
  | cons x xs ih =>
    by_cases hrest : xs = []
    · rw [hrest, List.cons_append, List.nil_append, List.intercalate_cons_of_ne_nil hys,
        List.intercalate_singleton]
    · rw [List.cons_append, List.intercalate_cons_of_ne_nil (List.append_ne_nil_of_left_ne_nil hrest ys),
        ih hrest, List.intercalate_cons_of_ne_nil hrest]
      simp only [List.append_assoc]

/-- The first segments of a text are those of what stands before one of its slashes. -/
theorem segments_prefix_iff : segments dir <+: segments key ↔
    key = dir ∨ ∃ rest, key = dir ++ '/' :: rest := by
  constructor
  · rintro ⟨ss, hss⟩
    by_cases hend : ss = []
    · rw [hend, List.append_nil] at hss
      exact .inl (segments_inj.1 hss.symm)
    · refine .inr ⟨List.intercalate ['/'] ss, ?_⟩
      rw [← intercalate_segments key, ← hss, intercalate_append _ (segments_ne_nil dir) hend,
        intercalate_segments, List.append_assoc]
      rfl
  · rintro (rfl | ⟨rest, rfl⟩)
    · exact List.prefix_rfl
    · rw [segments_append]
      exact List.prefix_append _ _

/-- The characters of a directory and a slash behind them say the same as its segments. -/
theorem under_iff_segments : under dir key = true ↔ withoutTrailingSlashes dir = [] ∨
    segments (withoutTrailingSlashes dir) <+: segments key := by
  rw [under_iff, segments_prefix_iff]

/-- What follows a directory behind a slash lies under it, also when the directory ends in slashes
itself. -/
theorem under_child (dir name : List Char) : under dir (dir ++ '/' :: name) = true := by
  rw [under_iff_segments, segments_append]
  have hself := under_iff_segments.1 (under_self dir)
  exact hself.imp_right fun hdir => hdir.trans (List.prefix_append _ _)

/-! ## From directory to directory -/

/-- Slashes at the end of a key are empty segments, and a directory does not end in one. -/
theorem under_key_slashes (dir key : List Char) (n : Nat) :
    under dir (key ++ List.replicate n '/') = under dir key := by
  induction n with
  | zero => rw [List.replicate_zero, List.append_nil]
  | succ n ih =>
    rw [← ih, List.replicate_succ', ← List.append_assoc, Bool.eq_iff_iff, under_iff_segments,
      under_iff_segments]
    -- one slash more at the end is one empty segment more
    generalize key ++ List.replicate n '/' = key
    rw [segments_append, show segments [] = [[]] from rfl, List.prefix_concat_iff]
    have hne : segments (withoutTrailingSlashes dir) ≠ segments key ++ [[]] := by
      intro h
      refine withoutTrailingSlashes_ne dir key (segments_inj.1 ?_)
      rw [h, segments_append]
      rfl
    rw [or_iff_right hne]

theorem under_withoutTrailingSlashes (dir key : List Char) :
    under dir (withoutTrailingSlashes key) = under dir key := by
  obtain ⟨slashes, hslashes, hkey⟩ := withoutTrailingSlashes_append key
  have hsame := under_key_slashes dir (withoutTrailingSlashes key) slashes.length
  rw [← List.eq_replicate_of_mem hslashes, ← hkey] at hsame
  exact hsame.symm

/-- The middle directory stands for its segments without the slashes at its end: as a key these do not
count either. -/
theorem under_trans {a b c : List Char} (hab : under a b = true) (hbc : under b c = true) :
    under a c = true := by
  rw [← under_withoutTrailingSlashes] at hab
  rw [under_iff_segments] at hbc
  rcases hbc with hroot | hbc
  · rw [hroot, under_iff] at hab
    refine under_iff.2 (.inl ?_)
    rcases hab with ha | ha | ⟨rest, hrest⟩
    · exact ha
    · exact ha.symm
    · simp at hrest
  · rw [under_iff_segments] at hab ⊢
    exact hab.imp_right fun hab => hab.trans hbc

/-! ## Names -/

/-- What a directory can be called in the one above it: a segment that is not empty. -/
structure IsSegment (cs : List Char) : Prop where
  ne_nil : cs ≠ []
  slash_free : '/' ∉ cs

/-- Nothing is cut off behind a name. -/
theorem IsSegment.nothing_cut {name : List Char} (h : IsSegment name) (up : List Char) :
    withoutTrailingSlashes (up ++ name) = up ++ name := by
  refine List.rdropWhile_eq_self_iff.2 fun hne hlast => h.slash_free ?_
  rw [List.getLast_append_of_ne_nil _ h.ne_nil, beq_iff_eq] at hlast
  rw [← hlast]
  exact List.getLast_mem h.ne_nil

/-- What is written behind a text without a slash goes on with the last segment of the text. -/
theorem segments_append_name (up : List Char) : ∃ front last, ∀ name, '/' ∉ name →
    segments (up ++ name) = front ++ [last ++ name] := by
  induction up with
  | nil =>
    refine ⟨[], [], fun name hname => ?_⟩
    rw [List.nil_append, segments_eq_splitOn, List.splitOn_eq_singleton hname]
    rfl
  | cons c up ih =>
    obtain ⟨front, last, ih⟩ := ih
    by_cases hc : c = '/'
    · refine ⟨[] :: front, last, fun name hname => ?_⟩
      rw [List.cons_append, segments, if_pos hc, ih name hname]
      rfl
    · cases front with
      | nil =>
        refine ⟨[], c :: last, fun name hname => ?_⟩
        rw [List.cons_append, segments, if_neg hc, ih name hname]
        rfl
      | cons s ss =>
        refine ⟨(c :: s) :: ss, last, fun name hname => ?_⟩
        rw [List.cons_append, segments, if_neg hc, ih name hname]
        rfl

theorem IsSegment.segments_prefix {name : List Char} (h : IsSegment name) {up : List Char}
    (hkey : under (up ++ name) key = true) : segments (up ++ name) <+: segments key := by
  rw [under_iff_segments, h.nothing_cut] at hkey
  exact hkey.resolve_left (List.append_ne_nil_of_right_ne_nil up h.ne_nil)

/-- Nothing lies under two directories whose names differ, whatever characters they begin with. -/
theorem under_of_ne {up a b : List Char} (ha : IsSegment a) (hb : IsSegment b) (hab : a ≠ b)
    (hkey : under (up ++ a) key = true) : under (up ++ b) key = false := by
  by_contra hother
  obtain ⟨front, last, hup⟩ := segments_append_name up
  rw [Bool.not_eq_false] at hother
  have hfirst := ha.segments_prefix hkey
  have hsecond := hb.segments_prefix hother
  rw [hup a ha.slash_free] at hfirst
  rw [hup b hb.slash_free] at hsecond
  have hlength : (front ++ [last ++ a]).length = (front ++ [last ++ b]).length := by simp
  have heq := (List.prefix_of_prefix_length_le hfirst hsecond hlength.le).eq_of_length hlength
  exact hab (by simpa using heq)

/-! ## Keys under directories -/

/-- A key lies under a directory exactly if the segments of the directory, without the slashes at its end,
are the first segments of the key; nothing but slashes is the root, which holds every key. So a directory
lies under itself, what lies under something below it lies under it, and slashes at its end do not count.
Of two things that begin alike and have different names neither lies under the other, nor does anything
lie under both. -/
theorem isUnder_by_segments :
    (∀ dir key : String, isUnder dir key = true ↔ withoutTrailingSlashes dir.toList = [] ∨
      segments (withoutTrailingSlashes dir.toList) <+: segments key.toList) ∧
    (∀ dir : String, isUnder dir dir = true) ∧
    (∀ a b c : String, isUnder a b = true → isUnder b c = true → isUnder a c = true) ∧
    (∀ (dir key : String) (n : Nat),
      isUnder (dir ++ String.ofList (List.replicate n '/')) key = isUnder dir key) ∧
    ∀ up a b : String, IsSegment a.toList → IsSegment b.toList → a ≠ b →
      isUnder (up ++ a) (up ++ b) = false ∧
      ∀ key, isUnder (up ++ a) key = true → isUnder (up ++ b) key = false := by
  refine ⟨?_, ?_, ?_, ?_, ?_⟩
  · intro dir key
    exact under_iff_segments
  · intro dir
    exact under_self dir.toList
  · intro a b c hab hbc
    exact under_trans hab hbc
  · intro dir key n
    rw [isUnder, String.toList_append, String.toList_ofList]
    exact under_dir_slashes dir.toList key.toList n
  · intro up a b ha hb hab
    have hchars : a.toList ≠ b.toList := mt String.toList_inj.1 hab
    simp only [isUnder, String.toList_append]
    exact ⟨under_of_ne hb ha hchars.symm (under_self _), fun key => under_of_ne ha hb hchars⟩

/-- Slashes in the middle count and slashes at the end do not; `/svc.orders` is not the beginning of
`/svc.orders-v2`. -/
theorem spare_slashes_under :
    isUnder "/svc//" "/svc///eu/" = true ∧ isUnder "/svc///eu/" "/svc///eu/1" = true ∧
      isUnder "/svc//" "/svc///eu/1" = true ∧
      IsSegment "s".toList ∧ IsSegment "s-v2".toList ∧ isUnder "/svc.orders" "/svc.orders-v2" = false ∧
      isUnder "/svc.orders-v2" "/svc.orders-v2/1" = true ∧
      isUnder "/svc.orders" "/svc.orders-v2/1" = false := by
  obtain ⟨-, -, htrans, -, hnames⟩ := isUnder_by_segments
  have hfirst : isUnder "/svc//" "/svc///eu/" = true := by decide
  have hsecond : isUnder "/svc///eu/" "/svc///eu/1" = true := by decide
  have hs : IsSegment "s".toList := ⟨by decide, by decide⟩
  have hv2 : IsSegment "s-v2".toList := ⟨by decide, by decide⟩
  have hbelow : isUnder "/svc.orders-v2" "/svc.orders-v2/1" = true := by decide
  exact ⟨hfirst, hsecond, htrans _ _ _ hfirst hsecond, hs, hv2,
    (hnames "/svc.order" "s" "s-v2" hs hv2 (by decide)).1, hbelow,
    (hnames "/svc.order" "s-v2" "s" hv2 hs (by decide)).2 _ hbelow⟩

end Muster.Path
