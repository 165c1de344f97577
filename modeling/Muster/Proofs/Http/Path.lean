/-
Where the path of a web address comes from. What stands behind a slash becomes the last segments of the
path, and neither the host nor the segments before the slash depend on it. Segments without dots of their
own are spelled one by one, and pieces without a backslash are the text between its slashes. Main
statements: `parse_path`, `pathText_inj`.
-/
import Mathlib.Data.List.DropRight
import Mathlib.Data.List.TakeWhile
import Muster.Http.Url
import Muster.Proofs.Http.Percent

namespace Muster.Http.Url

variable {cs ds : List Char} {c : Char}

/-! ## Lists up to an element -/

section Lists

variable {α : Type} {p : α → Bool} {x : α} {xs : List α}

theorem dropWhile_append (hx : x ∈ xs) (h : p x = false) (ys : List α) :
    (xs ++ ys).dropWhile p = xs.dropWhile p ++ ys := by
  rw [List.dropWhile_append, if_neg]
  rw [List.isEmpty_iff, List.dropWhile_eq_nil_iff]
  intro hall
  rw [hall x hx] at h
  cases h

theorem takeWhile_append (hx : x ∈ xs) (h : p x = false) (ys : List α) :
    (xs ++ ys).takeWhile p = xs.takeWhile p := by
  rw [List.takeWhile_append, if_neg]
  intro hlen
  have hall := List.takeWhile_eq_self_iff.1 ((List.takeWhile_prefix p).eq_of_length hlen)
  rw [hall x hx] at h
  cases h

theorem mem_dropWhile (hx : x ∈ xs) (h : p x = false) : x ∈ xs.dropWhile p := by
  rw [← List.takeWhile_append_dropWhile (p := p) (l := xs), List.mem_append] at hx
  refine hx.resolve_left fun htake => ?_
  rw [List.mem_takeWhile_imp htake] at h
  cases h

theorem mem_rdropWhile (h : p x = false) : x ∈ xs.rdropWhile p ↔ x ∈ xs := by
  refine ⟨fun hx => (List.rdropWhile_prefix p xs).subset hx, fun hx => ?_⟩
  rw [List.rdropWhile, List.mem_reverse]
  exact mem_dropWhile (List.mem_reverse.2 hx) h

theorem rdropWhile_append_cons (h : p x = false) (xs ys : List α) :
    (xs ++ x :: ys).rdropWhile p = xs ++ x :: ys.rdropWhile p := by
  induction ys using List.reverseRecOn with
  | nil => rw [List.rdropWhile_concat_neg p xs x (ne_true_of_eq_false h), List.rdropWhile_nil]
  | append_singleton ys y ih =>
    rw [← List.cons_append, ← List.append_assoc, List.rdropWhile_concat, List.rdropWhile_concat, ih]
    split
    · rfl
    · rw [List.append_assoc, List.cons_append]

/-- Nothing is cut off behind a last element that stays. -/
theorem rdropWhile_of_getLast? (h : ∀ x ∈ xs.getLast?, p x = false) : xs.rdropWhile p = xs := by
  rw [List.rdropWhile_eq_self_iff]
  intro hne
  rw [Bool.not_eq_true]
  apply h
  rw [List.getLast?_eq_some_getLast hne]
  rfl

/-- What is left of a list ends as the list does. -/
theorem mem_getLast?_of_suffix {ys : List α} (h : xs <:+ ys) (hx : x ∈ xs.getLast?) :
    x ∈ ys.getLast? := by
  obtain ⟨zs, rfl⟩ := h
  rw [List.getLast?_append, Option.mem_def.1 hx]
  rfl

end Lists

/-! ## Pieces -/

theorem pieces_ne_nil (cs : List Char) : pieces cs ≠ [] := by
  cases cs with
  | nil => exact nofun
  | cons c cs =>
    rw [pieces]
    split
    · exact nofun
    · split <;> exact nofun

theorem pieces_slash (h : isSlash c = true) (cs : List Char) : pieces (c :: cs) = [] :: pieces cs := by
  rw [pieces, if_pos h]

theorem pieces_char (h : isSlash c = false) {p : List Char} {ps : List (List Char)}
    (hcs : pieces cs = p :: ps) : pieces (c :: cs) = (c :: p) :: ps := by
  rw [pieces, if_neg (ne_true_of_eq_false h), hcs]

/-- A slash ends a piece. -/
theorem pieces_append (h : isSlash c = true) (cs ds : List Char) :
    pieces (cs ++ c :: ds) = pieces cs ++ pieces ds := by
  induction cs with
  | nil => exact pieces_slash h ds
  | cons d cs ih =>
    cases hd : isSlash d with
    | true => rw [List.cons_append, pieces_slash hd, pieces_slash hd, ih, List.cons_append]
    | false =>
      obtain ⟨p, ps, hps⟩ := List.exists_cons_of_ne_nil (pieces_ne_nil cs)
      rw [hps] at ih
      rw [List.cons_append, pieces_char hd ih, pieces_char hd hps]
      rfl

/-- A text without backslashes is its pieces, with slashes between them. -/
theorem intercalate_pieces (h : '\\' ∉ cs) : List.intercalate ['/'] (pieces cs) = cs := by
  induction cs with
  | nil => rfl
  | cons c cs ih =>
    obtain ⟨hc, hcs⟩ := not_or.1 (List.mem_cons.not.1 h)
    obtain ⟨p, ps, hps⟩ := List.exists_cons_of_ne_nil (pieces_ne_nil cs)
    have hrest := ih hcs
    cases hslash : isSlash c with
    | true =>
      have hself : c = '/' := by
        simpa [isSlash, Ne.symm hc] using hslash
      rw [pieces_slash hslash, hps, List.intercalate_cons_cons, ← hps, hrest, hself]
      rfl
    | false =>
      rw [hps] at hrest
      rw [pieces_char hslash hps, ← hrest]
      cases ps with
      | nil => rfl
      | cons q ps => rw [List.intercalate_cons_cons, List.intercalate_cons_cons]; rfl

theorem pieces_inj (hcs : '\\' ∉ cs) (hds : '\\' ∉ ds) (h : pieces cs = pieces ds) : cs = ds := by
  rw [← intercalate_pieces hcs, h, intercalate_pieces hds]

/-- A piece has no characters but those of the text, and of these no slashes. -/
theorem of_mem_pieces {p : List Char} (hp : p ∈ pieces cs) (hc : c ∈ p) :
    c ∈ cs ∧ isSlash c = false := by
  induction cs generalizing p with
  | nil =>
    rw [pieces, List.mem_singleton] at hp
    subst hp
    cases hc
  | cons d cs ih =>
    cases hd : isSlash d with
    | true =>
      rw [pieces_slash hd] at hp
      rcases List.mem_cons.1 hp with rfl | hp
      · cases hc
      · exact (ih hp hc).imp_left (List.mem_cons_of_mem d)
    | false =>
      obtain ⟨q, qs, hqs⟩ := List.exists_cons_of_ne_nil (pieces_ne_nil cs)
      rw [pieces_char hd hqs] at hp
      rw [hqs] at ih
      rcases List.mem_cons.1 hp with rfl | hp
      · rcases List.mem_cons.1 hc with rfl | hc
        · exact ⟨List.mem_cons_self, hd⟩
        · exact (ih List.mem_cons_self hc).imp_left (List.mem_cons_of_mem d)
      · exact (ih (List.mem_cons_of_mem q hp) hc).imp_left (List.mem_cons_of_mem d)

/-- No slash stands in a segment. -/
def SlashFree (ps : List (List Char)) : Prop := ∀ p ∈ ps, '/' ∉ p

theorem slashFree_pieces (cs : List Char) : SlashFree (pieces cs) := fun _ hp hmem =>
  absurd (of_mem_pieces hp hmem).2 (by decide)

/-! ## Segments -/

/-- The segments so far after a piece that is not the last one, the last segment first. -/
def step (done : List (List Char)) (p : List Char) : List (List Char) :=
  match dots p with
  | some 1 => done
  | some 2 => back done
  | _ => percentEncode pathSet p :: done

theorem resolve_cons {ps : List (List Char)} (h : ps ≠ []) (done : List (List Char))
    (p : List Char) : resolve done (p :: ps) = resolve (step done p) ps := by
  rw [resolve, step]
  simp only [List.isEmpty_eq_false_iff.2 h, Bool.false_eq_true, if_false]
  generalize dots p = d
  rcases d with _ | _ | _ | _ | n <;> rfl

/-- Pieces before others leave segments on which these go on. -/
theorem resolve_append (ps : List (List Char)) {qs : List (List Char)} (h : qs ≠ [])
    (done : List (List Char)) : resolve done (ps ++ qs) = resolve (ps.foldl step done) qs := by
  induction ps generalizing done with
  | nil => rfl
  | cons p ps ih =>
    rw [List.cons_append, resolve_cons (List.append_ne_nil_of_right_ne_nil ps h), ih, List.foldl_cons]

theorem resolve_ne_nil {ps : List (List Char)} (h : ps ≠ []) (done : List (List Char)) :
    resolve done ps ≠ [] := by
  induction ps generalizing done with
  | nil => exact absurd rfl h
  | cons p ps ih =>
    cases ps with
    | nil =>
      rw [resolve]
      split <;> simp [resolve]
    | cons q ps =>
      rw [resolve_cons (List.cons_ne_nil q ps)]
      exact ih (List.cons_ne_nil q ps) _

theorem SlashFree.resolve {done ps : List (List Char)} (hdone : SlashFree done)
    (hps : SlashFree ps) : SlashFree (resolve done ps) := by
  induction ps generalizing done with
  | nil => exact fun p hp => hdone p (List.mem_reverse.1 hp)
  | cons p ps ih =>
    obtain ⟨hp, hps⟩ := List.forall_mem_cons.1 hps
    have hstay {done : List (List Char)} (hdone : SlashFree done) :
        SlashFree (if ps.isEmpty then [] :: done else done) := by
      split
      · exact List.forall_mem_cons.2 ⟨nofun, hdone⟩
      · exact hdone
    have hback : SlashFree (back done) := by
      cases done with
      | nil => exact hdone
      | cons q qs =>
        rw [back]
        split
        · exact hdone
        · exact (List.forall_mem_cons.1 hdone).2
    rw [Url.resolve]
    split
    · exact ih (hstay hdone) hps
    · exact ih (hstay hback) hps
    · exact ih (List.forall_mem_cons.2 ⟨slash_not_mem_percentEncode hp, hdone⟩) hps

/-- A piece is no dots, however they are spelled. -/
def IsName (p : List Char) : Prop := dots p ≠ some 1 ∧ dots p ≠ some 2

theorem eq_replicate_of_dots {p : List Char} {n : Nat} (hp : '%' ∉ p) (h : dots p = some n) :
    p = List.replicate n '.' := by
  induction p generalizing n with
  | nil =>
    rw [dots, Option.some.injEq] at h
    rw [← h]
    rfl
  | cons c p ih =>
    obtain ⟨hc, hrest⟩ := not_or.1 (List.mem_cons.not.1 hp)
    by_cases hdot : c = '.'
    · subst hdot
      rw [dots, Option.map_eq_some_iff] at h
      obtain ⟨m, hm, rfl⟩ := h
      rw [ih hrest hm]
      rfl
    · -- neither a dot nor the spelling of one
      unfold dots at h
      split at h
      all_goals simp_all

/-- Without percent signs, nothing is dots but dots. -/
theorem isName_of_ne {p : List Char} (hp : '%' ∉ p) (hone : p ≠ ['.']) (htwo : p ≠ ['.', '.']) :
    IsName p :=
  ⟨fun h => hone (eq_replicate_of_dots hp h), fun h => htwo (eq_replicate_of_dots hp h)⟩

/-- Pieces that are no dots are spelled one by one. -/
theorem resolve_names {ps : List (List Char)} (h : ∀ p ∈ ps, IsName p) (done : List (List Char)) :
    resolve done ps = done.reverse ++ ps.map (percentEncode pathSet) := by
  induction ps generalizing done with
  | nil => rw [resolve, List.map_nil, List.append_nil]
  | cons p ps ih =>
    obtain ⟨hone, htwo⟩ := h p List.mem_cons_self
    rw [resolve]
    split
    · exact absurd ‹_› hone
    · exact absurd ‹_› htwo
    · rw [ih (fun q hq => h q (List.mem_cons_of_mem p hq)), List.reverse_cons, List.append_assoc]
      rfl

/-! ## The text of an address -/

/-- Characters without line ends. -/
def joined (cs : List Char) : List Char := cs.filter (!isLineBreak ·)

theorem joined_append (cs ds : List Char) : joined (cs ++ ds) = joined cs ++ joined ds :=
  List.filter_append cs ds

/-- What counts of the characters at the end of an address. -/
def counted (cs : List Char) : List Char := joined (cs.rdropWhile isEdge)

/-- Behind a slash, everything counts but line ends and what the address ends in. -/
theorem significant_slash {s : String} (hs : s.toList = c :: cs) (hc : isEdge c = false)
    (t : String) : significant (s ++ "/" ++ t) = joined s.toList ++ '/' :: counted t.toList := by
  have htext : (s ++ "/" ++ t).toList = c :: (cs ++ '/' :: t.toList) := by
    rw [String.toList_append, String.toList_append, hs, List.append_assoc]
    rfl
  unfold significant
  rw [htext, List.dropWhile_cons_of_neg (ne_true_of_eq_false hc), hs]
  show joined ((c :: cs ++ '/' :: t.toList).rdropWhile isEdge) = _
  rw [rdropWhile_append_cons (by decide), joined_append]
  rfl

/-! ## Reading -/

/-- The scheme, its usual port, and what follows its colon. -/
def scheme? (cs : List Char) : Option (List Char × Nat × List Char) :=
  match afterStart? "http:".toList cs with
  | some rest => some ("http://".toList, 80, rest)
  | none => (afterStart? "https:".toList cs).map fun rest => ("https://".toList, 443, rest)

/-- What follows the authority in what follows the colon of a scheme. -/
def afterAuthority (rest : List Char) : List Char :=
  (rest.dropWhile isSlash).dropWhile (!endsAuthority ·)

/-- The authority in what follows the colon of a scheme. -/
def authority (rest : List Char) : List Char :=
  (rest.dropWhile isSlash).takeWhile (!endsAuthority ·)

/-- Neither a question mark nor a number sign: a path goes on there. -/
def isPathChar (c : Char) : Bool := c ≠ '?' && c ≠ '#'

/-- The path of what follows the authority. -/
def pathOf (rest : List Char) : List String :=
  (resolve [] (pieces ((rest.takeWhile isPathChar).drop 1))).map String.ofList

/-- Where origin and path of an address come from. -/
theorem parse_path (s : String) : (parse s).map (fun u => (u.origin, u.path)) =
    (scheme? (significant s)).bind fun (scheme, usual, rest) =>
      (Authority.read usual (authority rest)).map fun host =>
        (String.ofList (scheme ++ host), pathOf (afterAuthority rest)) := by
  unfold parse scheme?
  dsimp only
  cases afterStart? "http:".toList (significant s) with
  | some rest =>
    show Option.map _ ((Authority.read 80 (authority rest)).bind _) = Option.map _ _
    cases Authority.read 80 (authority rest) <;> rfl
  | none =>
    cases afterStart? "https:".toList (significant s) with
    | none => rfl
    | some rest =>
      show Option.map _ ((Authority.read 443 (authority rest)).bind _) = Option.map _ _
      cases Authority.read 443 (authority rest) <;> rfl

/-- The path of an address as a text. -/
def pathText (u : Url) : String := "/" ++ String.intercalate "/" u.path

/-- What an address was read as has at least one segment, and no slash in any. -/
theorem path_of_parse {s : String} {u : Url} (h : parse s = some u) :
    u.path ≠ [] ∧ SlashFree (u.path.map String.toList) := by
  have hread := parse_path s
  rw [h, Option.map_some] at hread
  obtain ⟨⟨scheme, usual, rest⟩, -, hauthority⟩ := Option.bind_eq_some_iff.1 hread.symm
  obtain ⟨host, -, heq⟩ := Option.map_eq_some_iff.1 hauthority
  have hpath : pathOf (afterAuthority rest) = u.path := congrArg Prod.snd heq
  rw [← hpath]
  unfold pathOf
  constructor
  · rw [Ne, List.map_eq_nil_iff]
    exact resolve_ne_nil (pieces_ne_nil _) _
  · rw [List.map_map]
    have hsame : String.toList ∘ String.ofList = id := funext fun _ => String.toList_ofList
    rw [hsame, List.map_id]
    exact SlashFree.resolve nofun (slashFree_pieces _)

/-- Paths are the same if their texts are. -/
theorem pathText_inj {s t : String} {u v : Url} (hu : parse s = some u) (hv : parse t = some v) :
    u.pathText = v.pathText ↔ u.path = v.path := by
  have hsplit {s : String} {u : Url} (hu : parse s = some u) :
      (u.pathText.toList.drop 1).splitOn '/' = u.path.map String.toList := by
    obtain ⟨hne, hfree⟩ := path_of_parse hu
    have htext : u.pathText.toList.drop 1 = ['/'].intercalate (u.path.map String.toList) := by
      rw [pathText, String.toList_append, String.toList_intercalate]
      rfl
    rw [htext]
    exact List.splitOn_intercalate '/' hfree (List.map_eq_nil_iff.not.2 hne)
  constructor
  · intro h
    have hsegments := hsplit hu
    rw [h, hsplit hv] at hsegments
    exact (List.map_injective_iff.2 (fun _ _ => String.toList_inj.1) hsegments).symm
  · intro h
    rw [pathText, pathText, h]

/-! ## What does not depend on the end of an address -/

/-- Behind the end of an authority, an address may go on as it likes. -/
theorem authority_append {rest : List Char} {x y : Char} (hx : x ∈ rest) (hname : isSlash x = false)
    (hy : y ∈ rest.dropWhile isSlash) (hend : endsAuthority y = true) (ds : List Char) :
    authority (rest ++ ds) = authority rest ∧ afterAuthority (rest ++ ds) = afterAuthority rest ++ ds := by
  have hstop : (!endsAuthority y) = false := by rw [hend]; rfl
  unfold authority afterAuthority
  rw [dropWhile_append hx hname]
  exact ⟨takeWhile_append hy hstop ds, dropWhile_append hy hstop ds⟩

/-- A path that has ended does not go on. -/
theorem pathOf_append_marked {x : Char} (hx : x ∈ cs) (hmark : isPathChar x = false)
    (ds : List Char) : pathOf (cs ++ ds) = pathOf cs := by
  unfold pathOf
  rw [takeWhile_append hx hmark]

/-- A path that has not ended goes on behind a slash with the pieces up to its end. -/
theorem pathOf_append_slash (hne : cs ≠ []) (h : ∀ x ∈ cs, isPathChar x = true) (ds : List Char) :
    pathOf (cs ++ '/' :: ds) =
      (resolve ((pieces (cs.drop 1)).foldl step []) (pieces (ds.takeWhile isPathChar))).map
        String.ofList := by
  obtain ⟨c, cs, rfl⟩ := List.exists_cons_of_ne_nil hne
  unfold pathOf
  rw [List.takeWhile_append_of_pos h]
  show (resolve [] (pieces (cs ++ '/' :: ds.takeWhile isPathChar))).map String.ofList = _
  rw [pieces_append (by decide), resolve_append _ (pieces_ne_nil _)]
  rfl

end Muster.Http.Url
