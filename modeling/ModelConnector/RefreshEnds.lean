import ModelConnector.Connectors.ModelRefresh
import ModelConnector.Foundations.Follow

/-!
# A refresh that ends is all or nothing

The pages of a listing are a walk from URL to URL. A refresh ends when the walk does, and then it
has either put the models of every page in the place of the old ones or left these alone. The walk
is the provider's to choose: a token that leads back to a page already read keeps the loop going for
ever, and where finitely many URLs are reached this is the only way it does not end.
-/

namespace ModelConnector.Refresh

open Ecma StateTransition

variable {listing : ModelListing} {fetch : Text → PageAnswer} {url u : Text}
  {pageUrl next : Option Text} {models metas : List ProviderModelMeta}
  {cache cache' : Option (List ProviderModelMeta)} {result : RefreshEnd} {rounds : ℕ}

/-! ### The pages of a listing -/

/-- The page at a URL: its models, and where it continues. -/
def IsPage (listing : ModelListing) (fetch : Text → PageAnswer) (url : Text)
    (models : List ProviderModelMeta) (next : Option Text) : Prop :=
  ∃ status json, fetch url = .answered status (some json) ∧ isOk status = true ∧
    listing.extractModels json = some models ∧ listing.getNextModelsUrl json = some next

/-- There is no page to be had at a URL. -/
def PageFails (listing : ModelListing) (fetch : Text → PageAnswer) (url : Text) : Prop :=
  ¬ ∃ models next, IsPage listing fetch url models next

/-- A URL that is there, and is not empty. -/
def url? : Option Text → Option Text
  | some (u :: us) => some (u :: us)
  | _ => none

/-- The models of the pages from a URL to the one that has no next page. -/
inductive Pages (listing : ModelListing) (fetch : Text → PageAnswer) :
    Option Text → List (List ProviderModelMeta) → Prop
  | done {pageUrl : Option Text} (h : url? pageUrl = none) : Pages listing fetch pageUrl []
  | page {pageUrl next : Option Text} {url : Text} {models : List ProviderModelMeta}
      {rest : List (List ProviderModelMeta)} (h : url? pageUrl = some url)
      (hpage : IsPage listing fetch url models next) (hrest : Pages listing fetch next rest) :
      Pages listing fetch pageUrl (models :: rest)

/-- The URL of the page after the one at a URL. -/
def nextUrl (listing : ModelListing) (fetch : Text → PageAnswer) (url : Text) : Option Text :=
  match readPage listing (fetch url) with
  | .read _ next => url? next
  | .stopped _ => none

/-- The URLs of the walk. -/
def Reached (listing : ModelListing) (fetch : Text → PageAnswer) (url : Text) : Prop :=
  ∃ first, url? (some listing.modelsUrl) = some first ∧ Reaches (nextUrl listing fetch) first url

/-- **What is wanted of a refresh**: it ends; the models that it puts in the place of the old ones
are those of all pages; and these stay as they are when a page fails or there are no models. -/
structure RefreshesWhole (listing : ModelListing) (fetch : Text → PageAnswer) : Prop where
  ends : ∀ cache, ∃ rounds r, refreshModels listing fetch cache rounds = some r
  replaced : ∀ {cache cache' rounds},
    refreshModels listing fetch cache rounds = some (.success, cache') →
      ∃ pages, Pages listing fetch (some listing.modelsUrl) pages ∧ cache' = some pages.flatten
  kept : ∀ {cache cache' rounds result},
    refreshModels listing fetch cache rounds = some (result, cache') →
      (∃ url, Reached listing fetch url ∧ PageFails listing fetch url) ∨
        (∀ pages, Pages listing fetch (some listing.modelsUrl) pages → pages.flatten = []) →
      cache' = cache

/-! ### One round -/

theorem readPage_eq_read_iff :
    readPage listing (fetch url) = .read models next ↔ IsPage listing fetch url models next := by
  unfold IsPage
  constructor
  · intro h
    cases hfetch : fetch url with
    | rejected =>
      rw [hfetch] at h
      cases h
    | answered status body =>
      simp only [hfetch, readPage] at h
      split_ifs at h with hok
      cases body with
      | none => cases h
      | some json =>
        dsimp only at h
        split at h
        · rename_i models' next' hmodels hnext
          cases h
          exact ⟨status, json, rfl, hok, hmodels, hnext⟩
        · cases h
  · rintro ⟨status, json, hfetch, hok, hmodels, hnext⟩
    rw [hfetch, readPage, if_pos hok]
    simp only [hmodels, hnext]

/-- A page is read as what it is, or it fails. -/
theorem not_pageFails (hpage : IsPage listing fetch url models next) :
    ¬ PageFails listing fetch url :=
  fun hfails ↦ hfails ⟨models, next, hpage⟩

theorem nextUrl_of_isPage (hpage : IsPage listing fetch url models next) :
    nextUrl listing fetch url = url? next := by
  rw [nextUrl, readPage_eq_read_iff.2 hpage]

/-- The loop stops where there is no URL. -/
theorem refreshFrom_of_none (h : url? pageUrl = none) :
    refreshFrom listing fetch (rounds + 1) pageUrl metas =
      if metas = [] then some (.failed .empty, none) else some (.success, some metas) := by
  cases pageUrl with
  | none => rfl
  | some url =>
    cases url with
    | nil => rfl
    | cons => cases h

theorem refreshFrom_of_some (h : url? pageUrl = some url) :
    refreshFrom listing fetch (rounds + 1) pageUrl metas =
      match readPage listing (fetch url) with
      | .stopped result => some (result, none)
      | .read models next => refreshFrom listing fetch rounds next (metas ++ models) := by
  unfold url? at h
  split at h
  · cases h
    rfl
  · cases h

/-! ### A whole walk -/

/-- **What the loop comes to**: the models of all pages, or a page that fails. -/
theorem refreshFrom_cases {written : Option (List ProviderModelMeta)}
    (h : refreshFrom listing fetch rounds pageUrl metas = some (result, written)) :
    (∃ pages, Pages listing fetch pageUrl pages ∧
      (metas ++ pages.flatten ≠ [] ∧ result = .success ∧ written = some (metas ++ pages.flatten) ∨
        metas ++ pages.flatten = [] ∧ result = .failed .empty ∧ written = none)) ∨
    ∃ first url, url? pageUrl = some first ∧ Reaches (nextUrl listing fetch) first url ∧
      readPage listing (fetch url) = .stopped result ∧ written = none := by
  induction rounds generalizing pageUrl metas with
  | zero => cases h
  | succ rounds ih =>
    cases hurl : url? pageUrl with
    | none =>
      rw [refreshFrom_of_none hurl] at h
      refine .inl ⟨[], .done hurl, ?_⟩
      rw [List.flatten_nil, List.append_nil]
      split_ifs at h with hmetas
      · cases h
        exact .inr ⟨hmetas, rfl, rfl⟩
      · cases h
        exact .inl ⟨hmetas, rfl, rfl⟩
    | some url =>
      rw [refreshFrom_of_some hurl] at h
      cases hread : readPage listing (fetch url) with
      | stopped result' =>
        rw [hread] at h
        cases h
        exact .inr ⟨url, url, rfl, .refl, hread, rfl⟩
      | read models next =>
        rw [hread] at h
        have hpage := readPage_eq_read_iff.1 hread
        rcases ih h with ⟨pages, hpages, hend⟩ | ⟨first, last, hfirst, hreach, hstopped⟩
        · refine .inl ⟨models :: pages, .page hurl hpage hpages, ?_⟩
          rwa [List.append_assoc, ← List.flatten_cons] at hend
        · exact .inr ⟨url, last, rfl,
            .head ((nextUrl_of_isPage hpage).trans hfirst) hreach, hstopped⟩

/-- A walk that has pages to its end meets no page that fails. -/
theorem not_pageFails_of_pages {pages : List (List ProviderModelMeta)} {first : Text}
    (h : Pages listing fetch pageUrl pages) (hfirst : url? pageUrl = some first)
    (hreach : Reaches (nextUrl listing fetch) first url) : ¬ PageFails listing fetch url := by
  induction h generalizing first with
  | done h => cases h.symm.trans hfirst
  | page hurl hpage _ ih =>
    cases hurl.symm.trans hfirst
    rcases Relation.ReflTransGen.cases_head hreach with rfl | ⟨second, hstep, hrest⟩
    · exact not_pageFails hpage
    · exact ih ((nextUrl_of_isPage hpage).symm.trans hstep) hrest

/-! ### Ending -/

variable (metas) in
/-- The loop ends where the walk does. -/
theorem exists_refreshFrom {last : Text} (hreach : Reaches (nextUrl listing fetch) url last)
    (hend : nextUrl listing fetch last = none) (hurl : url? pageUrl = some url) :
    ∃ rounds r, refreshFrom listing fetch rounds pageUrl metas = some r := by
  induction hreach using Relation.ReflTransGen.head_induction_on generalizing pageUrl metas with
  | refl =>
    cases hread : readPage listing (fetch last) with
    | stopped result =>
      refine ⟨1, (result, none), ?_⟩
      rw [refreshFrom_of_some hurl, hread]
    | read models next =>
      rw [nextUrl_of_isPage (readPage_eq_read_iff.1 hread)] at hend
      refine ⟨2, ?_⟩
      rw [refreshFrom_of_some hurl, hread]
      dsimp only
      rw [refreshFrom_of_none hend]
      split_ifs
      · exact ⟨_, rfl⟩
      · exact ⟨_, rfl⟩
  | @head url second hstep _ ih =>
    cases hread : readPage listing (fetch url) with
    | stopped result =>
      rw [Option.mem_def, nextUrl, hread] at hstep
      cases hstep
    | read models next =>
      rw [Option.mem_def, nextUrl_of_isPage (readPage_eq_read_iff.1 hread)] at hstep
      obtain ⟨rounds, r, hr⟩ := ih (metas ++ models) hstep
      refine ⟨rounds + 1, r, ?_⟩
      rw [refreshFrom_of_some hurl, hread]
      exact hr

/-- The walk ends where the loop does. -/
theorem exists_end_of_refreshFrom {r : RefreshEnd × Option (List ProviderModelMeta)}
    (h : refreshFrom listing fetch rounds pageUrl metas = some r) (hurl : url? pageUrl = some url) :
    ∃ last, Reaches (nextUrl listing fetch) url last ∧ nextUrl listing fetch last = none := by
  induction rounds generalizing pageUrl metas url with
  | zero => cases h
  | succ rounds ih =>
    rw [refreshFrom_of_some hurl] at h
    cases hread : readPage listing (fetch url) with
    | stopped result =>
      refine ⟨url, .refl, ?_⟩
      rw [nextUrl, hread]
    | read models next =>
      rw [hread] at h
      have hstep := nextUrl_of_isPage (readPage_eq_read_iff.1 hread)
      cases hnext : url? next with
      | none => exact ⟨url, .refl, hstep.trans hnext⟩
      | some second =>
        obtain ⟨last, hreach, hend⟩ := ih h hnext
        exact ⟨last, .head (hstep.trans hnext) hreach, hend⟩

/-- A refresh ends exactly when the walk comes to an end, or does not begin. -/
theorem exists_refreshModels_iff : (∃ rounds r, refreshModels listing fetch cache rounds = some r) ↔
    ∀ first, url? (some listing.modelsUrl) = some first →
      ∃ last, Reaches (nextUrl listing fetch) first last ∧ nextUrl listing fetch last = none := by
  unfold refreshModels
  constructor
  · rintro ⟨rounds, r, hr⟩ first hfirst
    obtain ⟨r', hr', -⟩ := Option.map_eq_some_iff.1 hr
    exact exists_end_of_refreshFrom hr' hfirst
  · intro h
    cases hfirst : url? (some listing.modelsUrl) with
    | none =>
      refine ⟨1, ?_⟩
      rw [refreshFrom_of_none hfirst, if_pos rfl]
      exact ⟨_, rfl⟩
    | some first =>
      obtain ⟨last, hreach, hend⟩ := h first hfirst
      obtain ⟨rounds, r, hr⟩ := exists_refreshFrom [] hreach hend hfirst
      refine ⟨rounds, (r.1, r.2.or cache), ?_⟩
      rw [hr]
      rfl

/-! ### All or nothing -/

theorem refreshModels_cases (h : refreshModels listing fetch cache rounds = some (result, cache')) :
    (∃ pages, Pages listing fetch (some listing.modelsUrl) pages ∧
      (pages.flatten ≠ [] ∧ result = .success ∧ cache' = some pages.flatten ∨
        pages.flatten = [] ∧ result = .failed .empty ∧ cache' = cache)) ∨
    ∃ url, Reached listing fetch url ∧ readPage listing (fetch url) = .stopped result ∧
      cache' = cache := by
  obtain ⟨⟨result', written⟩, hfrom, heq⟩ := Option.map_eq_some_iff.1 h
  cases heq
  rcases refreshFrom_cases hfrom with
    ⟨pages, hpages, hend⟩ | ⟨first, url, hfirst, hreach, hstop, hw⟩
  · refine .inl ⟨pages, hpages, ?_⟩
    rw [List.nil_append] at hend
    rcases hend with ⟨hne, hresult, rfl⟩ | ⟨hnil, hresult, rfl⟩
    · exact .inl ⟨hne, hresult, rfl⟩
    · exact .inr ⟨hnil, hresult, rfl⟩
  · subst hw
    exact .inr ⟨url, ⟨first, hfirst, hreach⟩, hstop, rfl⟩

theorem readPage_ne_stopped_success {answer : PageAnswer} :
    readPage listing answer ≠ .stopped .success := by
  unfold readPage
  split
  · simp
  · split_ifs
    · split
      · simp
      · split <;> simp
    · simp

/-- What is put in the place of the old models are the models of all pages. -/
theorem pages_of_success (h : refreshModels listing fetch cache rounds = some (.success, cache')) :
    ∃ pages, Pages listing fetch (some listing.modelsUrl) pages ∧ cache' = some pages.flatten := by
  rcases refreshModels_cases h with ⟨pages, hpages, hend⟩ | ⟨url, -, hstop, -⟩
  · rcases hend with ⟨-, -, hcache⟩ | ⟨-, hresult, -⟩
    · exact ⟨pages, hpages, hcache⟩
    · cases hresult
  · exact absurd hstop readPage_ne_stopped_success

/-- Nothing is replaced when a page fails or there are no models. -/
theorem cache_of_refused
    (h : refreshModels listing fetch cache rounds = some (result, cache'))
    (hrefused : (∃ url, Reached listing fetch url ∧ PageFails listing fetch url) ∨
      ∀ pages, Pages listing fetch (some listing.modelsUrl) pages → pages.flatten = []) :
    cache' = cache := by
  rcases refreshModels_cases h with ⟨pages, hpages, hend⟩ | ⟨url, -, -, hcache⟩
  · rcases hend with ⟨hne, -, -⟩ | ⟨-, -, hcache⟩
    · rcases hrefused with ⟨url, ⟨first, hfirst, hreach⟩, hfails⟩ | hnone
      · exact absurd hfails (not_pageFails_of_pages hpages hfirst hreach)
      · exact absurd (hnone pages hpages) hne
    · exact hcache
  · exact hcache

theorem nextUrl_baseListing (modelsUrl : Text) (fetch : Text → PageAnswer) (url : Text) :
    nextUrl (baseListing modelsUrl) fetch url = none := by
  unfold nextUrl
  split
  · rename_i hread
    obtain ⟨_, _, -, -, -, hnext⟩ := readPage_eq_read_iff.1 hread
    cases hnext
    rfl
  · rfl

/-- A connector that overrides nothing reads one page, and its refresh is what is wanted of it. -/
theorem refreshesWhole_baseListing (modelsUrl : Text) (fetch : Text → PageAnswer) :
    RefreshesWhole (baseListing modelsUrl) fetch where
  ends _ := exists_refreshModels_iff.2 fun first _ ↦
    ⟨first, .refl, nextUrl_baseListing modelsUrl fetch first⟩
  replaced := pages_of_success
  kept := cache_of_refused

/-- **A refresh is what is wanted of it** exactly when no page that it reads leads back to itself,
provided that finitely many URLs are reached. -/
theorem refreshesWhole_iff (hfinite : {url | Reached listing fetch url}.Finite) :
    RefreshesWhole listing fetch ↔
      ∀ url, Reached listing fetch url → ¬ Reaches₁ (nextUrl listing fetch) url url := by
  have hends : (∀ cache, ∃ rounds r, refreshModels listing fetch cache rounds = some r) ↔
      ∀ url, Reached listing fetch url → ¬ Reaches₁ (nextUrl listing fetch) url url := by
    simp only [exists_refreshModels_iff, forall_const]
    constructor
    · rintro h url ⟨first, hfirst, hreach⟩
      have hfinite' : {b | Reaches (nextUrl listing fetch) first b}.Finite :=
        hfinite.subset fun b hb ↦ ⟨first, hfirst, hb⟩
      exact (exists_end_iff hfinite').1 (h first hfirst) url hreach
    · intro h first hfirst
      have hfinite' : {b | Reaches (nextUrl listing fetch) first b}.Finite :=
        hfinite.subset fun b hb ↦ ⟨first, hfirst, hb⟩
      exact (exists_end_iff hfinite').2 fun b hb ↦ h b ⟨first, hfirst, hb⟩
  exact ⟨fun h ↦ hends.1 h.ends, fun h ↦ ⟨hends.2 h, pages_of_success, cache_of_refused⟩⟩

/-! ### Listings of Gemini -/

/-- A page with one model, and a token of the next page. -/
def pageWithToken : Value :=
  .obj [(ascii "models", .arr [.obj [(ascii "name", .str (ascii "models/gemini-2.5-pro")),
      (ascii "supportedGenerationMethods", .arr [.str (ascii "generateContent")])]]),
    (ascii "nextPageToken", .str (ascii "a"))]

/-- A page with one model, and no token. -/
def pageWithoutToken : Value :=
  .obj [(ascii "models", .arr [.obj [(ascii "name", .str (ascii "models/gemini-2.5-flash")),
    (ascii "supportedGenerationMethods", .arr [.str (ascii "generateContent")])]])]

/-- The URL of the first page. -/
def firstUrl : Text :=
  ascii "https://generativelanguage.googleapis.com/v1beta/models?pageSize=1000"

/-- The URL that the token leads to. -/
def secondUrl : Text :=
  ascii "https://generativelanguage.googleapis.com/v1beta/models?pageSize=1000&pageToken=a"

theorem url?_gemini : url? (some (geminiListing []).modelsUrl) = some firstUrl := by
  decide +kernel

/-- A provider that answers every request with the same page. -/
def samePage (_ : Text) : PageAnswer :=
  .answered 200 (some pageWithToken)

theorem isPage_samePage (url : Text) : IsPage (geminiListing []) samePage url
    [{ id := ascii "gemini-2.5-pro" }] (some secondUrl) :=
  ⟨200, pageWithToken, rfl, rfl, by decide +kernel, by decide +kernel⟩

theorem refreshFrom_samePage (hurl : url? pageUrl = some url) :
    refreshFrom (geminiListing []) samePage rounds pageUrl metas = none := by
  induction rounds generalizing pageUrl metas url with
  | zero => rfl
  | succ rounds ih =>
    rw [refreshFrom_of_some hurl, readPage_eq_read_iff.2 (isPage_samePage url)]
    exact @ih secondUrl _ _ (by decide +kernel)

/-- A token that leads back to its own page: two URLs are reached, and the refresh does not end. -/
theorem token_repeats :
    {url | Reached (geminiListing []) samePage url}.Finite ∧
      ¬ RefreshesWhole (geminiListing []) samePage := by
  constructor
  · refine (Set.toFinite {firstUrl, secondUrl}).subset ?_
    rintro url ⟨first, hfirst, hreach⟩
    cases hfirst.symm.trans url?_gemini
    rcases Relation.ReflTransGen.cases_tail hreach with rfl | ⟨before, -, hstep⟩
    · exact .inl rfl
    · rw [Option.mem_def, nextUrl_of_isPage (isPage_samePage before)] at hstep
      have hsecond : url? (some secondUrl) = some secondUrl := by decide +kernel
      cases hsecond.symm.trans hstep
      exact .inr rfl
  · intro h
    obtain ⟨rounds, r, hr⟩ := h.ends none
    rw [refreshModels, refreshFrom_samePage url?_gemini] at hr
    cases hr

/-- A provider with two pages. -/
def twoPages (url : Text) : PageAnswer :=
  .answered 200 (some (if url = firstUrl then pageWithToken else pageWithoutToken))

theorem nextUrl_twoPages (hurl : url ≠ firstUrl) :
    nextUrl (geminiListing []) twoPages url = none := by
  have hpage : IsPage (geminiListing []) twoPages url
      [withGeminiPrice (ascii "gemini-2.5-flash")] none :=
    ⟨200, pageWithoutToken, by rw [twoPages, if_neg hurl], rfl, by decide +kernel,
      by decide +kernel⟩
  exact nextUrl_of_isPage hpage

theorem nextUrl_twoPages_first :
    nextUrl (geminiListing []) twoPages firstUrl = some secondUrl := by
  have hpage : IsPage (geminiListing []) twoPages firstUrl
      [{ id := ascii "gemini-2.5-pro" }] (some secondUrl) :=
    ⟨200, pageWithToken, by rw [twoPages, if_pos rfl], rfl, by decide +kernel, by decide +kernel⟩
  rw [nextUrl_of_isPage hpage]
  decide +kernel

theorem mem_of_reached_twoPages (h : Reached (geminiListing []) twoPages url) :
    url = firstUrl ∨ url = secondUrl := by
  obtain ⟨first, hfirst, hreach⟩ := h
  cases hfirst.symm.trans url?_gemini
  rcases Relation.ReflTransGen.cases_tail hreach with rfl | ⟨before, -, hstep⟩
  · exact .inl rfl
  · rcases eq_or_ne before firstUrl with rfl | hne
    · rw [Option.mem_def, nextUrl_twoPages_first] at hstep
      exact .inr (Option.some.inj hstep).symm
    · rw [Option.mem_def, nextUrl_twoPages hne] at hstep
      cases hstep

/-- Two pages are read, and then the refresh ends. -/
theorem refreshesWhole_twoPages : RefreshesWhole (geminiListing []) twoPages := by
  have hne : secondUrl ≠ firstUrl := by decide +kernel
  refine (refreshesWhole_iff ?_).2 fun url hurl hcycle ↦ ?_
  · exact (Set.toFinite {firstUrl, secondUrl}).subset fun url hurl ↦ mem_of_reached_twoPages hurl
  · have hlater : ∀ {a b}, Reaches₁ (nextUrl (geminiListing []) twoPages) a b → b ≠ firstUrl := by
      intro a b hab hb
      obtain ⟨before, -, hstep⟩ := Relation.TransGen.tail'_iff.1 hab
      rcases eq_or_ne before firstUrl with rfl | hbefore
      · rw [Option.mem_def, nextUrl_twoPages_first] at hstep
        exact hne ((Option.some.inj hstep).trans hb)
      · rw [Option.mem_def, nextUrl_twoPages hbefore] at hstep
        cases hstep
    exact not_reaches₁_of_eq_none (nextUrl_twoPages (hlater hcycle)) hcycle

end ModelConnector.Refresh
