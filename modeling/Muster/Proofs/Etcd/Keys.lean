/-
The path of a request about a key. The key is written behind its endpoint as it is, and read as a part of
an address: what its characters mean there decides how much of it is in the path. Neither the origin nor
the segments before the key depend on it. Main statements: `path_of_request`, `keyPath_eq_iff`.
-/
import Mathlib.Data.String.Basic
import Muster.Etcd.Store
import Muster.Proofs.Http.Path
import Muster.Proofs.Store.Path

namespace Muster.Etcd

open Http (Url)

variable {endpoint : String}

/-! ## Before the key -/

/-- The characters of an address before the slash of its key. -/
def lead (endpoint : String) : List Char :=
  Url.joined (withoutTrailingSlashes endpoint ++ "/v2/keys").toList

/-- What follows the authority of an endpoint, up to the slash of a key. -/
def beforeKey (endpoint : String) : List Char :=
  Url.afterAuthority (((lead endpoint).dropWhile (· ≠ ':')).drop 1)

/-- An endpoint with a question mark or a number sign: there the paths of all addresses end. -/
def isMarked (endpoint : String) : Bool := endpoint.toList.any (!Url.isPathChar ·)

/-- The names of the schemes that an endpoint may have. -/
def IsWeb (name : List Char) : Prop := name = "http".toList ∨ name = "https".toList

/-- An endpoint begins with the name of a scheme and a colon, also without the slashes at its end. -/
theorem scheme_of_hasWebScheme (h : Config.hasWebScheme endpoint = true) :
    ∃ name rest, IsWeb name ∧ endpoint.toList = name ++ ':' :: rest ∧
      (withoutTrailingSlashes endpoint).toList = name ++ ':' :: rest.rdropWhile (· == '/') := by
  have hcut {name rest : List Char} (hrest : endpoint.toList = name ++ ':' :: rest) :
      (withoutTrailingSlashes endpoint).toList = name ++ ':' :: rest.rdropWhile (· == '/') := by
    rw [withoutTrailingSlashes, String.toList_ofList, hrest]
    exact Url.rdropWhile_append_cons (by decide) name rest
  rw [Config.hasWebScheme, Bool.or_eq_true, String.startsWith_string_iff,
    String.startsWith_string_iff] at h
  rcases h with ⟨rest, hrest⟩ | ⟨rest, hrest⟩
  · exact ⟨"http".toList, '/' :: '/' :: rest, .inl rfl, hrest.symm, hcut hrest.symm⟩
  · exact ⟨"https".toList, '/' :: '/' :: rest, .inr rfl, hrest.symm, hcut hrest.symm⟩

theorem mark_cases {c : Char} (h : Url.isPathChar c = false) : c = '?' ∨ c = '#' := by
  simpa [Url.isPathChar, or_iff_not_imp_left] using h

/-- What an address at an endpoint begins with. Between the colon and the key there are the marks of the
endpoint and no others. -/
theorem lead_eq (h : Config.hasWebScheme endpoint = true) :
    ∃ name rest, IsWeb name ∧ lead endpoint = name ++ ':' :: (rest ++ "/v2/keys".toList) ∧
      ∀ c, Url.isPathChar c = false → (c ∈ endpoint.toList ↔ c ∈ rest) := by
  obtain ⟨name, rest, hname, hrest, htext⟩ := scheme_of_hasWebScheme h
  refine ⟨name, Url.joined (rest.rdropWhile (· == '/')), hname, ?_, ?_⟩
  · rw [lead, String.toList_append, htext, List.append_assoc, List.cons_append]
    have hsplit := Url.joined_append (rest.rdropWhile (· == '/')) "/v2/keys".toList
    rcases hname with rfl | rfl
    · exact congrArg ("http:".toList ++ ·) hsplit
    · exact congrArg ("https:".toList ++ ·) hsplit
  · intro c hc
    have hbreak : Url.isLineBreak c = false := by
      rcases mark_cases hc with rfl | rfl <;> rfl
    have hslash : (c == '/') = false := by
      rcases mark_cases hc with rfl | rfl <;> rfl
    have hscheme : c ∉ name ++ [':'] := by
      rcases mark_cases hc with rfl | rfl <;> rcases hname with rfl | rfl <;> decide
    have hkept : c ∈ Url.joined (rest.rdropWhile (· == '/')) ↔ c ∈ rest := by
      rw [Url.joined, List.mem_filter, hbreak, Url.mem_rdropWhile (p := (· == '/')) hslash]
      exact and_iff_left rfl
    rw [hkept, hrest, ← List.singleton_append, ← List.append_assoc, List.mem_append,
      or_iff_right hscheme]

/-- What follows the colon in an address at an endpoint: authority and path are apart before the key. -/
structure IsBase (rest : List Char) : Prop where
  authority (ds : List Char) : Url.authority (rest ++ ds) = Url.authority rest
  after (ds : List Char) : Url.afterAuthority (rest ++ ds) = Url.afterAuthority rest ++ ds
  slash : '/' ∈ Url.afterAuthority rest
  mark {c : Char} : Url.isPathChar c = false → c ∈ rest → c ∈ Url.afterAuthority rest

theorem isBase (rest : List Char) : IsBase (rest ++ "/v2/keys".toList) := by
  have hname : 'v' ∈ rest ++ "/v2".toList := List.mem_append_right _ (by decide)
  have hsplit : rest ++ "/v2/keys".toList = rest ++ "/v2".toList ++ "/keys".toList := by
    rw [List.append_assoc]
    rfl
  have hslash : '/' ∈ (rest ++ "/v2/keys".toList).dropWhile Url.isSlash := by
    rw [hsplit, Url.dropWhile_append hname (by decide)]
    exact List.mem_append_right _ (by decide)
  have happend := Url.authority_append (List.mem_append_right rest (by decide : 'v' ∈ "/v2/keys".toList))
    (by decide) hslash (by decide)
  constructor
  · exact fun ds => (happend ds).1
  · exact fun ds => (happend ds).2
  · exact Url.mem_dropWhile hslash (by decide)
  · intro c hc hmem
    have hplain : Url.isSlash c = false ∧ Url.endsAuthority c = true := by
      rcases mark_cases hc with rfl | rfl <;> decide
    refine Url.mem_dropWhile (Url.mem_dropWhile hmem hplain.1) ?_
    rw [hplain.2]
    rfl

theorem beforeKey_eq {name rest : List Char} (hname : IsWeb name)
    (h : lead endpoint = name ++ ':' :: rest) : beforeKey endpoint = Url.afterAuthority rest := by
  rw [beforeKey, h]
  rcases hname with rfl | rfl <;> rfl

/-- A path ends before the key if the endpoint is marked, and only then. -/
theorem isMarked_iff (h : Config.hasWebScheme endpoint = true) :
    isMarked endpoint = true ↔ ∃ c ∈ beforeKey endpoint, Url.isPathChar c = false := by
  obtain ⟨name, rest, hname, hlead, hmarks⟩ := lead_eq h
  rw [beforeKey_eq hname hlead, isMarked, List.any_eq_true]
  constructor
  · rintro ⟨c, hc, hmark⟩
    rw [Bool.not_eq_true'] at hmark
    exact ⟨c, (isBase rest).mark hmark (List.mem_append_left _ ((hmarks c hmark).1 hc)), hmark⟩
  · rintro ⟨c, hc, hmark⟩
    have hrest : c ∈ rest ++ "/v2/keys".toList :=
      (List.dropWhile_suffix _).subset ((List.dropWhile_suffix _).subset hc)
    have hkeys : c ∉ "/v2/keys".toList := by
      rcases mark_cases hmark with rfl | rfl <;> decide
    refine ⟨c, (hmarks c hmark).2 ((List.mem_append.1 hrest).resolve_right hkeys), ?_⟩
    rw [hmark]
    rfl

/-! ## The path of a key -/

/-- The segments before a key, the last one first. -/
def stem (endpoint : String) : List (List Char) :=
  (Url.pieces ((beforeKey endpoint).drop 1)).foldl Url.step []

/-- The pieces of a path that a key is cut into: up to its first question mark or number sign, and
without line ends anywhere or blanks at the end. -/
def keyPieces (key : String) : List (List Char) :=
  Url.pieces ((Url.counted (key.toList.dropWhile (· == '/'))).takeWhile Url.isPathChar)

/-- The path of a key at an endpoint. -/
def keyPath (endpoint key : String) : List String :=
  if isMarked endpoint then Url.pathOf (beforeKey endpoint)
  else (Url.resolve (stem endpoint) (keyPieces key)).map String.ofList

theorem keyUrl_eq (endpoint key : String) :
    keyUrl endpoint key = withoutTrailingSlashes endpoint ++ "/v2/keys" ++ "/" ++
      String.ofList (key.toList.dropWhile (· == '/')) := by
  have hslash : "/v2/keys/" = "/v2/keys" ++ "/" := rfl
  rw [keyUrl, hslash, ← String.append_assoc]

/-- No blanks are cut off before an address at an endpoint. -/
theorem text_eq_cons (h : Config.hasWebScheme endpoint = true) (s : String) :
    ∃ c cs, (withoutTrailingSlashes endpoint ++ s).toList = c :: cs ∧ Url.isEdge c = false := by
  obtain ⟨name, rest, hname, -, htext⟩ := scheme_of_hasWebScheme h
  rw [String.toList_append, htext]
  rcases hname with rfl | rfl <;> exact ⟨'h', _, rfl, by decide⟩

/-- The scheme of an address at an endpoint is that of the endpoint, whatever follows. -/
theorem scheme_lead {name : List Char} (hname : IsWeb name) :
    ∃ scheme usual, ∀ rest, Url.scheme? (name ++ ':' :: rest) = some (scheme, usual, rest) := by
  rcases hname with rfl | rfl
  · exact ⟨_, _, fun _ => rfl⟩
  · exact ⟨_, _, fun _ => rfl⟩

/-- The address of a key is one if that of any other key is; it has the origin of the endpoint and the
path of the key. -/
theorem parse_keyUrl (h : Config.hasWebScheme endpoint = true) :
    ∃ origin : Option String, ∀ key,
      (Url.parse (keyUrl endpoint key)).map (fun u => (u.origin, u.path)) =
        origin.map fun o => (o, keyPath endpoint key) := by
  obtain ⟨name, rest, hname, hlead, -⟩ := lead_eq h
  obtain ⟨scheme, usual, hscheme⟩ := scheme_lead hname
  have hbase := isBase rest
  have hbefore := beforeKey_eq hname hlead
  obtain ⟨c, cs, htext, hc⟩ := text_eq_cons h "/v2/keys"
  refine ⟨(Http.Authority.read usual (Url.authority (rest ++ "/v2/keys".toList))).map fun host =>
    String.ofList (scheme ++ host), fun key => ?_⟩
  have hpath : Url.pathOf (beforeKey endpoint ++ '/' ::
      Url.counted (key.toList.dropWhile (· == '/'))) = keyPath endpoint key := by
    unfold keyPath
    split
    · rename_i hmarked
      obtain ⟨c, hc, hmark⟩ := (isMarked_iff h).1 hmarked
      exact Url.pathOf_append_marked hc hmark _
    · rename_i hplain
      refine Url.pathOf_append_slash ?_ ?_ _
      · rw [hbefore]
        exact List.ne_nil_of_mem hbase.slash
      · intro c hc
        by_contra hmark
        exact hplain ((isMarked_iff h).2 ⟨c, hc, Bool.eq_false_of_not_eq_true hmark⟩)
  rw [Url.parse_path, keyUrl_eq, Url.significant_slash htext hc, String.toList_ofList, ← lead, hlead,
    List.append_assoc, List.cons_append, hscheme, Option.bind_some]
  dsimp only
  rw [hbase.authority, hbase.after, ← hbefore, hpath, Option.map_map]
  rfl

/-- A query leaves the path of an address. -/
theorem url_of_request {a : Ask} {r : Http.Request} (hr : a.request endpoint = some r) :
    ∃ u, Url.parse (keyUrl endpoint a.key) = some u ∧ r.url.path = u.path := by
  obtain ⟨u, hu, rfl⟩ := Option.map_eq_some_iff.1 hr
  refine ⟨u, hu, ?_⟩
  show (if a.query.isEmpty then u else u.addQuery a.query).path = u.path
  split <;> rfl

/-- Every request about a key has the path of the key. -/
theorem path_of_request (h : Config.hasWebScheme endpoint = true) {a : Ask} {r : Http.Request}
    (hr : a.request endpoint = some r) : r.url.path = keyPath endpoint a.key := by
  obtain ⟨u, hu, hpath⟩ := url_of_request hr
  obtain ⟨origin, horigin⟩ := parse_keyUrl h
  have hread := horigin a.key
  rw [hu, Option.map_some] at hread
  obtain ⟨o, -, heq⟩ := Option.map_eq_some_iff.1 hread.symm
  rw [hpath]
  exact (congrArg Prod.snd heq).symm

/-- The paths of two requests are the same text exactly if they are the same path. -/
theorem pathText_eq_iff (h : Config.hasWebScheme endpoint = true) {a₁ a₂ : Ask} {r₁ r₂ : Http.Request}
    (hr₁ : a₁.request endpoint = some r₁) (hr₂ : a₂.request endpoint = some r₂) :
    r₁.url.pathText = r₂.url.pathText ↔ keyPath endpoint a₁.key = keyPath endpoint a₂.key := by
  obtain ⟨u₁, hu₁, hpath₁⟩ := url_of_request hr₁
  obtain ⟨u₂, hu₂, hpath₂⟩ := url_of_request hr₂
  rw [← path_of_request h hr₁, ← path_of_request h hr₂, hpath₁, hpath₂, ← Url.pathText_inj hu₁ hu₂]
  unfold Url.pathText
  rw [hpath₁, hpath₂]

/-- Two keys share the path of their requests where the endpoint ends all paths, and where what is left
of them resolves to the same segments. -/
theorem keyPath_eq_iff {k₁ k₂ : String} : keyPath endpoint k₁ = keyPath endpoint k₂ ↔
    isMarked endpoint = true ∨
      Url.resolve (stem endpoint) (keyPieces k₁) = Url.resolve (stem endpoint) (keyPieces k₂) := by
  unfold keyPath
  split
  · rename_i hmarked
    exact iff_of_true rfl (.inl hmarked)
  · rename_i hmarked
    rw [or_iff_right hmarked]
    exact (List.map_injective_iff.2 fun _ _ => String.ofList_inj.1).eq_iff

/-- What stands in a key behind a question mark is no part of its path: such a key has the path of another
one. -/
theorem keyPath_behind_mark {key : String}
    (hlast : ∀ c ∈ key.toList.getLast?, Url.isEdge c = false) (text : String) :
    keyPath endpoint (key ++ "?" ++ text) = keyPath endpoint key := by
  have htoList : (key ++ "?" ++ text).toList = key.toList ++ '?' :: text.toList := by
    rw [String.toList_append, String.toList_append, List.append_assoc]
    rfl
  have hdrop : (key ++ "?" ++ text).toList.dropWhile (· == '/') =
      key.toList.dropWhile (· == '/') ++ '?' :: text.toList := by
    rw [htoList, List.dropWhile_append]
    split
    · rename_i hnil
      rw [List.isEmpty_iff.1 hnil]
      rfl
    · rfl
  have hend : (key.toList.dropWhile (· == '/')).rdropWhile Url.isEdge =
      key.toList.dropWhile (· == '/') :=
    Url.rdropWhile_of_getLast? fun c hc =>
      hlast c (Url.mem_getLast?_of_suffix (List.dropWhile_suffix _) hc)
  have hcounted : Url.counted ((key ++ "?" ++ text).toList.dropWhile (· == '/')) =
      Url.counted (key.toList.dropWhile (· == '/')) ++ '?' :: Url.counted text.toList := by
    rw [hdrop]
    unfold Url.counted
    rw [Url.rdropWhile_append_cons (by decide), hend, Url.joined_append]
    rfl
  have hpieces : keyPieces (key ++ "?" ++ text) = keyPieces key := by
    unfold keyPieces
    rw [hcounted, List.takeWhile_append]
    split
    · rename_i hall
      rw [(List.takeWhile_prefix _).eq_of_length hall]
      exact congrArg Url.pieces (List.append_nil _)
    · rfl
  rw [keyPath_eq_iff, hpieces]
  exact .inr rfl

end Muster.Etcd
