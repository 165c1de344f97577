/-
Keys that stay apart. Keys whose characters mean nothing in an address have paths of their own, and then no
operation on the one key sends a request with the path of another. Main statement: `path_shared_iff`.
-/
import Muster.Proofs.Etcd.Keys

namespace Muster.Etcd

open Http (Url)

/-! ## Plain keys -/

/-- The characters with a meaning in an address. -/
def meaningful : List Char := ['?', '#', '\\', '%', '\t', '\n', '\r']

/-- A key that means in an address what it says: no character with another meaning, no blank at its end,
and no segment of one or two dots. -/
structure IsPlain (key : String) : Prop where
  chars : ∀ c ∈ key.toList, c ∉ meaningful
  last : ∀ c ∈ key.toList.getLast?, Url.isEdge c = false
  names : ∀ p ∈ Url.pieces key.toList, p ≠ ['.'] ∧ p ≠ ['.', '.']

/-- Whether a key is plain, as a computation. -/
def checkPlain (key : String) : Bool :=
  key.toList.all (!meaningful.contains ·) && !key.toList.getLast?.any Url.isEdge &&
    (Url.pieces key.toList).all fun p => p != ['.'] && p != ['.', '.']

theorem isPlain_iff {key : String} : IsPlain key ↔ checkPlain key = true := by
  simp only [checkPlain, Bool.and_eq_true, List.all_eq_true, Bool.not_eq_true', bne_iff_ne,
    List.contains_eq_mem, decide_eq_false_iff_not]
  constructor
  · rintro ⟨hchars, hlast, hnames⟩
    refine ⟨⟨hchars, ?_⟩, hnames⟩
    cases hend : key.toList.getLast? with
    | none => rfl
    | some c => exact hlast c hend
  · rintro ⟨⟨hchars, hlast⟩, hnames⟩
    refine ⟨hchars, fun c hc => ?_, hnames⟩
    rw [Option.mem_def.1 hc] at hlast
    exact hlast

/-- A key of the registry begins with one slash. -/
theorem keyName_toList (service cluster : String) (segments : List String) :
    ∃ rest, (Registry.keyName service cluster segments).toList = '/' :: 'c' :: rest := by
  have hgrow (segments : List String) (key : String) (rest : List Char)
      (hkey : key.toList = '/' :: 'c' :: rest) :
      ∃ rest, (segments.foldl (fun key segment => key ++ "/" ++ segment) key).toList =
        '/' :: 'c' :: rest := by
    induction segments generalizing key rest with
    | nil => exact ⟨rest, hkey⟩
    | cons segment segments ih =>
      refine ih (key ++ "/" ++ segment) (rest ++ "/".toList ++ segment.toList) ?_
      rw [String.toList_append, String.toList_append, hkey]
      rfl
  refine hgrow segments _ (String.toList ("orral-service" ++ "." ++ service ++ "." ++ cluster)) ?_
  simp only [String.toList_append]
  rfl

namespace IsPlain

variable {key k₁ k₂ : String} {rest : List Char}

/-- Nothing of a plain key is lost in an address. -/
theorem keyPieces_eq (h : IsPlain key) (hkey : key.toList = '/' :: 'c' :: rest) :
    keyPieces key = Url.pieces ('c' :: rest) := by
  obtain ⟨hchars, hlast, -⟩ := h
  rw [hkey] at hchars hlast
  have hmem {c : Char} (hc : c ∈ 'c' :: rest) : c ∉ meaningful := hchars c (List.mem_cons_of_mem _ hc)
  have hend : ('c' :: rest).rdropWhile Url.isEdge = 'c' :: rest :=
    Url.rdropWhile_of_getLast? fun c hc => hlast c hc
  have hbreaks : ('c' :: rest).filter (!Url.isLineBreak ·) = 'c' :: rest := by
    rw [List.filter_eq_self]
    intro c hc
    have := hmem hc
    simp only [meaningful, List.mem_cons, not_or] at this
    simp [Url.isLineBreak, this]
  have hpath : ('c' :: rest).takeWhile Url.isPathChar = 'c' :: rest := by
    rw [List.takeWhile_eq_self_iff]
    intro c hc
    have := hmem hc
    simp only [meaningful, List.mem_cons, not_or] at this
    simp [Url.isPathChar, this]
  unfold keyPieces Url.counted
  rw [hkey]
  show Url.pieces (((('c' :: rest).rdropWhile Url.isEdge).filter _).takeWhile _) = _
  rw [hend, hbreaks, hpath]

/-- The pieces of a plain key are spelled one by one. -/
theorem resolve_eq (h : IsPlain key) (hkey : key.toList = '/' :: 'c' :: rest)
    (done : List (List Char)) : Url.resolve done (keyPieces key) =
      done.reverse ++ (Url.pieces ('c' :: rest)).map (Http.percentEncode Url.pathSet) := by
  rw [h.keyPieces_eq hkey]
  apply Url.resolve_names
  intro p hp
  have hmem : p ∈ Url.pieces key.toList := by
    rw [hkey, Url.pieces_slash (by decide)]
    exact List.mem_cons_of_mem _ hp
  have hpercent : '%' ∉ p := fun hc =>
    h.chars '%' (Url.of_mem_pieces hmem hc).1 (by decide)
  exact Url.isName_of_ne hpercent (h.names p hmem).1 (h.names p hmem).2

/-- Plain keys of the registry that resolve to the same segments are the same. -/
theorem eq_of_resolve_eq (h₁ : IsPlain k₁) (h₂ : IsPlain k₂) {rest₁ rest₂ : List Char}
    (hk₁ : k₁.toList = '/' :: 'c' :: rest₁) (hk₂ : k₂.toList = '/' :: 'c' :: rest₂)
    {done : List (List Char)}
    (h : Url.resolve done (keyPieces k₁) = Url.resolve done (keyPieces k₂)) : k₁ = k₂ := by
  have hlacks {key : String} {rest : List Char} {c : Char} (hplain : IsPlain key)
      (hkey : key.toList = '/' :: 'c' :: rest) (hc : c ∈ meaningful) : c ∉ 'c' :: rest := fun hmem =>
    hplain.chars c (hkey ▸ List.mem_cons_of_mem _ hmem) hc
  have hpercent {key : String} {rest : List Char} (hplain : IsPlain key)
      (hkey : key.toList = '/' :: 'c' :: rest) : ∀ p ∈ Url.pieces ('c' :: rest), '%' ∉ p :=
    fun p hp hmem => hlacks hplain hkey (by decide) (Url.of_mem_pieces hp hmem).1
  rw [h₁.resolve_eq hk₁, h₂.resolve_eq hk₂, List.append_cancel_left_eq] at h
  have hpieces := Http.map_percentEncode_inj (hpercent h₁ hk₁) (hpercent h₂ hk₂) h
  have htext := Url.pieces_inj (hlacks h₁ hk₁ (by decide)) (hlacks h₂ hk₂ (by decide)) hpieces
  rw [← String.toList_inj, hk₁, hk₂, htext]

end IsPlain

/-! ## Operations -/

section Operations

variable {ω : Type} {http http' : Http.Transport ω} {c : Config} {key k₁ k₂ : String}

/-- Two ways to the endpoints that treat all requests alike but those with the path of one key. -/
def AgreeBut (c : Config) (key : String) (http http' : Http.Transport ω) : Prop :=
  ∀ e ∈ c.endpoints, ∀ (a : Ask) r, a.request e = some r → r.url.path ≠ keyPath e key →
    ∀ within w, http r within w = http' r within w

theorem askEndpoint_congr {a : Ask} {e : String}
    (h : ∀ r, a.request e = some r → ∀ within w, http r within w = http' r within w)
    (within : Option Nat) (w : ω) : askEndpoint http a within e w = askEndpoint http' a within e w := by
  unfold askEndpoint
  cases hr : a.request e with
  | none => rfl
  | some r =>
    dsimp only
    rw [h r hr]

theorem askInOrder_congr {a : Ask} {es : List String}
    (h : ∀ e ∈ es, ∀ r, a.request e = some r → ∀ within w, http r within w = http' r within w)
    (within : Option Nat) (last : String) (maybeApplied : Bool) (w : ω) :
    askInOrder http a within es last maybeApplied w =
      askInOrder http' a within es last maybeApplied w := by
  induction es generalizing last maybeApplied w with
  | nil => rfl
  | cons e es ih =>
    have hrest := ih fun d hd => h d (List.mem_cons_of_mem e hd)
    unfold askInOrder
    rw [askEndpoint_congr (h e List.mem_cons_self)]
    simp only [hrest]

/-- An operation on a key is the same over ways that treat all requests of that key alike. -/
theorem operations_congr
    (h : ∀ (a : Ask) within w, a.key = key → send http c a within w = send http' c a within w) (w : ω) :
    (∀ value, create http c key value w = create http' c key value w) ∧
      get http c key w = get http' c key w ∧ delete http c key w = delete http' c key w := by
  have hrequest {a : Ask} (ha : a.key = key) (w : ω) : request http c a w = request http' c a w := by
    unfold request
    rw [h a _ w ha]
  have hget (w : ω) : get http c key w = get http' c key w := by
    unfold get
    rw [hrequest rfl]
  refine ⟨fun value => ?_, hget w, ?_⟩
  · unfold create readBack
    rw [h _ _ w rfl]
    simp only [hget]
  · unfold delete
    rw [hrequest rfl]

/-- Where the paths of two keys differ, no operation on the one sends a request with the path of the
other. -/
theorem operations_apart (hweb : ∀ e ∈ c.endpoints, Config.hasWebScheme e = true)
    (hpaths : ∀ e ∈ c.endpoints, keyPath e k₁ ≠ keyPath e k₂) (h : AgreeBut c k₂ http http') (w : ω) :
    (∀ value, create http c k₁ value w = create http' c k₁ value w) ∧
      get http c k₁ w = get http' c k₁ w ∧ delete http c k₁ w = delete http' c k₁ w := by
  apply operations_congr
  rintro a within w rfl
  apply askInOrder_congr
  intro e he r hr
  refine h e he a r hr ?_
  rw [path_of_request (hweb e he) hr]
  exact hpaths e he

end Operations

/-! ## Keys at accepted endpoints -/

theorem hasWebScheme_of_validate {c : Config} (h : c.validate = .ok ()) :
    ∀ e ∈ c.endpoints, Config.hasWebScheme e = true := by
  intro e he
  unfold Config.validate at h
  split at h
  · cases h
  · split at h
    · cases h
    · rename_i hnone
      simpa using List.find?_eq_none.1 hnone e he

/-- Two keys of the registry share the path of their requests exactly if the endpoint ends all paths
itself, or what an address keeps of the keys resolves to the same segments. This never happens to
different plain keys at endpoints without marks; then no operation on the one key sends a request with
the path of the other. -/
theorem path_shared_iff {c : Config} (hc : c.validate = .ok ())
    (service₁ cluster₁ : String) (sequences₁ : List String)
    (service₂ cluster₂ : String) (sequences₂ : List String) :
    let k₁ := Registry.keyName service₁ cluster₁ sequences₁
    let k₂ := Registry.keyName service₂ cluster₂ sequences₂
    (∀ e ∈ c.endpoints, ∀ (a₁ a₂ : Ask) r₁ r₂, a₁.key = k₁ → a₂.key = k₂ →
      a₁.request e = some r₁ → a₂.request e = some r₂ →
      (r₁.url.pathText = r₂.url.pathText ↔ isMarked e = true ∨
        Url.resolve (stem e) (keyPieces k₁) = Url.resolve (stem e) (keyPieces k₂))) ∧
    (IsPlain k₁ → IsPlain k₂ → k₁ ≠ k₂ → (∀ e ∈ c.endpoints, isMarked e = false) →
      (∀ e ∈ c.endpoints, ∀ (a₁ a₂ : Ask) r₁ r₂, a₁.key = k₁ → a₂.key = k₂ →
        a₁.request e = some r₁ → a₂.request e = some r₂ →
        r₁.url.pathText ≠ r₂.url.pathText) ∧
      ∀ {ω : Type} (http http' : Http.Transport ω), AgreeBut c k₂ http http' → ∀ w,
        (∀ value, create http c k₁ value w = create http' c k₁ value w) ∧
          get http c k₁ w = get http' c k₁ w ∧ delete http c k₁ w = delete http' c k₁ w) := by
  intro k₁ k₂
  have hweb := hasWebScheme_of_validate hc
  constructor
  · intro e he a₁ a₂ r₁ r₂ ha₁ ha₂ hr₁ hr₂
    rw [pathText_eq_iff (hweb e he) hr₁ hr₂, ha₁, ha₂, keyPath_eq_iff]
  · intro hplain₁ hplain₂ hne hunmarked
    obtain ⟨rest₁, hk₁⟩ := keyName_toList service₁ cluster₁ sequences₁
    obtain ⟨rest₂, hk₂⟩ := keyName_toList service₂ cluster₂ sequences₂
    have hpaths : ∀ e ∈ c.endpoints, keyPath e k₁ ≠ keyPath e k₂ := by
      intro e he heq
      rcases keyPath_eq_iff.1 heq with hmarked | hresolve
      · rw [hunmarked e he] at hmarked
        cases hmarked
      · exact hne (hplain₁.eq_of_resolve_eq hplain₂ hk₁ hk₂ hresolve)
    constructor
    · intro e he a₁ a₂ r₁ r₂ ha₁ ha₂ hr₁ hr₂
      rw [Ne, pathText_eq_iff (hweb e he) hr₁ hr₂, ha₁, ha₂]
      exact hpaths e he
    · intro ω http http' h w
      exact operations_apart hweb hpaths h w

/-- At the default endpoint, the request that removes the key of a sequence with a question mark has the
path of the key of another one. The keys of two plain sequences stay apart: whether requests about the
second are answered or not makes no difference to the first. -/
theorem question_mark_shares_path :
    let key := fun sequence => Registry.keyName "orders" Registry.defaultCluster [sequence]
    let remove := fun sequence => (Ask.request { method := .delete, key := key sequence } defaultEndpoint)
    let answering : Http.Transport Unit := fun _ _ w => (.ok { status := 200 }, w)
    let deaf : Http.Transport Unit := fun r within w =>
      if r.url.path = keyPath defaultEndpoint (key "2") then (.error .timedOut, w)
      else answering r within w
    key "1" ≠ key "1?x" ∧
    (∃ r₁ r₂, remove "1" = some r₁ ∧ remove "1?x" = some r₂ ∧
      r₁.url.pathText = r₂.url.pathText) ∧
    (∃ r₁ r₂, remove "1" = some r₁ ∧ remove "2" = some r₂ ∧
      r₁.url.pathText ≠ r₂.url.pathText) ∧
    delete answering {} (key "1") () = delete deaf {} (key "1") () := by
  intro key remove answering deaf
  have hvalid : Config.validate {} = .ok () := by decide +kernel
  have hdefault : defaultEndpoint ∈ ({} : Config).endpoints := List.mem_singleton_self _
  obtain ⟨r₁, hr₁⟩ : ∃ r, remove "1" = some r := Option.isSome_iff_exists.1 (by decide +kernel)
  obtain ⟨r₂, hr₂⟩ : ∃ r, remove "1?x" = some r := Option.isSome_iff_exists.1 (by decide +kernel)
  obtain ⟨r₃, hr₃⟩ : ∃ r, remove "2" = some r := Option.isSome_iff_exists.1 (by decide +kernel)
  have hshared := (path_shared_iff hvalid "orders" Registry.defaultCluster ["1"] "orders"
    Registry.defaultCluster ["1?x"]).1 defaultEndpoint hdefault _ _ r₁ r₂ rfl rfl hr₁ hr₂
  have hplain₁ : IsPlain (key "1") := isPlain_iff.2 (by decide +kernel)
  have hplain₂ : IsPlain (key "2") := isPlain_iff.2 (by decide +kernel)
  obtain ⟨hpaths, hsame⟩ := (path_shared_iff hvalid "orders" Registry.defaultCluster ["1"] "orders"
    Registry.defaultCluster ["2"]).2 hplain₁ hplain₂ (by decide +kernel) (by decide +kernel)
  have hmark : key "1?x" = key "1" ++ "?" ++ "x" := by decide +kernel
  have hsamePath : keyPath defaultEndpoint (key "1") = keyPath defaultEndpoint (key "1?x") := by
    rw [hmark, keyPath_behind_mark hplain₁.last]
  refine ⟨by decide +kernel, ⟨r₁, r₂, hr₁, hr₂, hshared.2 (keyPath_eq_iff.1 hsamePath)⟩,
    ⟨r₁, r₃, hr₁, hr₃, hpaths defaultEndpoint hdefault _ _ r₁ r₃ rfl rfl hr₁ hr₃⟩, ?_⟩
  have hagree : AgreeBut {} (key "2") answering deaf := by
    intro e he a r _ hne within w
    rw [List.mem_singleton.1 he] at hne
    exact (if_neg hne).symm
  exact (hsame answering deaf hagree ()).2.2

end Muster.Etcd
