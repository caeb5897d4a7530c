import ReleaseDraft.Proofs.AllOrNothing
import ReleaseDraft.Proofs.RemoteNames
import ReleaseDraft.Proofs.WrittenPaths

/-!
# The root of an interface is extended

The resources of a repository lie below the root of the interface: its path is kept as a directory
(`Path.directory`), and `repos`, owner and name, and the resource follow.  So the text of the first
page can be read off the root (`Client.firstPage_text`).

A root that is read has a written path, and written segments can be told from their text
(`Path.IsWritten.eq_of_text_eq`).  So roots with the same directory have the same segments, but for
an empty last one, which is where a query, a fragment or a slash at the end could matter
(`Forge.base_of_directory`).
-/

namespace ReleaseDraft

/-! ### Paths as directories -/

namespace Path

variable {segments segments' : List (List Char)}

/-- The text of a path, with a slash at its end. -/
def directory (path : List Char) : List Char :=
  if path.getLast? = some '/' then path else path ++ ['/']

theorem text_eq_intercalate (segments : List (List Char)) :
    (Path.segments segments).text = ['/'].intercalate ([] :: segments) := by
  induction segments with
  | nil => rfl
  | cons segment segments ih =>
    rw [List.intercalate_cons_cons]
    cases segments with
    | nil => simp [text]
    | cons next rest =>
      rw [List.intercalate_cons_cons] at ih ⊢
      simpa [text] using ih

theorem IsWritten.slash_not_mem (h : IsWritten segments) {segment : List Char}
    (hsegment : segment ∈ segments) : '/' ∉ segment := by
  intro hslash
  exact (inSegment_iff.1 (h segment hsegment '/' hslash)).2.2 rfl

/-- Written segments can be told from the text of their path. -/
theorem IsWritten.eq_of_text_eq (h : IsWritten segments) (h' : IsWritten segments')
    (htext : (Path.segments segments).text = (Path.segments segments').text) :
    segments = segments' := by
  have hsplit : ∀ {list : List (List Char)}, IsWritten list →
      (Path.segments list).text.splitOn '/' = [] :: list := by
    intro list hlist
    rw [text_eq_intercalate]
    refine List.splitOn_intercalate '/' (fun segment hsegment => ?_) (List.cons_ne_nil _ _)
    rcases List.mem_cons.1 hsegment with rfl | hsegment
    · simp
    · exact hlist.slash_not_mem hsegment
  exact List.tail_eq_of_cons_eq ((hsplit h).symm.trans (htext ▸ hsplit h'))

theorem isWritten_stem (h : IsWritten segments) : IsWritten (stem segments) := by
  unfold stem
  split_ifs
  · exact h.of_subset (List.dropLast_sublist _).subset
  · exact h

/-- The directory of a written path is its stem with a slash. -/
theorem IsWritten.directory_text (h : IsWritten segments) :
    directory (Path.segments segments).text = (Path.segments (stem segments)).text ++ ['/'] := by
  rcases List.eq_nil_or_concat segments with rfl | ⟨front, last, rfl⟩
  · rfl
  · rw [List.concat_eq_append] at h ⊢
    have htext : (Path.segments (front ++ [last])).text =
        (Path.segments front).text ++ '/' :: last := by
      simp [text]
    by_cases hlast : last = []
    · subst hlast
      simp [directory, stem, htext]
    · -- the last character is one of the last segment
      have hslash : last.getLast hlast ≠ '/' := fun heq =>
        h.slash_not_mem (by simp) (heq ▸ List.getLast_mem hlast)
      have hend : ((Path.segments front).text ++ '/' :: last).getLast? =
          some (last.getLast hlast) := by
        rw [List.getLast?_append, List.getLast?_cons, List.getLast?_eq_some_getLast hlast]
        rfl
      simp [directory, stem, htext, hend, hslash, hlast]

end Path

/-! ### Owner and name -/

namespace Slug

/-- A text of regular characters, perhaps of none, that is no step in a path. -/
structure IsSimplePart (part : List Char) : Prop where
  regular : part.all isRegular = true
  ne_dot : part ≠ ".".toList
  ne_dotDot : part ≠ "..".toList

variable {part : List Char}

theorem IsSimplePart.eq_nil_or_isRegularPart (h : IsSimplePart part) :
    part = [] ∨ IsRegularPart part := by
  by_cases hne : part = []
  · exact .inl hne
  · exact .inr ⟨hne, h.regular, h.ne_dot, h.ne_dotDot⟩

theorem IsSimplePart.encoded_eq (h : IsSimplePart part) : Path.encoded part = part := by
  rcases h.eq_nil_or_isRegularPart with rfl | hregular
  · rfl
  · exact hregular.encode_eq

theorem IsSimplePart.isPlain (h : IsSimplePart part) : Path.IsPlain part := by
  rcases h.eq_nil_or_isRegularPart with rfl | hregular
  · exact ⟨rfl, rfl⟩
  · refine ⟨List.all_eq_true.2 fun c hc => ?_, ?_⟩
    · have hforeign : Reference.isForeign c = false :=
        contains_eq_false _ (by decide) (hregular.isRegular_of_mem hc)
      simp [Path.isOrdinary, hforeign, hregular.endsSegment_eq true c hc]
    · rw [Path.encoded, hregular.encode_eq]
      exact hregular.isStep_eq

/-- Simple owners and names are segments of the path of a repository as they are. -/
theorem pathBelow_eq {slug : Slug} (howner : IsSimplePart slug.owner.toList)
    (hname : IsSimplePart slug.name.toList) (segments : List (List Char)) :
    slug.pathBelow segments =
      Path.stem segments ++ ["repos".toList, slug.owner.toList, slug.name.toList] := by
  rw [pathBelow, howner.encoded_eq, hname.encoded_eq]

end Slug

/-! ### Texts of URLs -/

theorem Percent.encodeForm_eq_self {text : List Char} (h : text.all Slug.isRegular = true) :
    encodeForm text = text := by
  induction text with
  | nil => rfl
  | cons c text ih =>
    rw [List.all_cons, Bool.and_eq_true] at h
    have hspace : (c == ' ') = false := by
      simpa using Slug.ne_of_isRegular h.1 (show Slug.isRegular ' ' = false by decide)
    have hkept : keptInForm c = true := by
      have hregular := h.1
      simp only [Slug.isRegular, keptInForm, Bool.or_eq_true] at hregular ⊢
      refine hregular.imp_right fun hsign => ?_
      simp at hsign ⊢
      tauto
    rw [encodeForm, List.flatMap_cons, hspace, hkept]
    exact congrArg (c :: ·) (ih h.2)

namespace Url

variable {url : Url}

/-- Scheme, host and port, as a URL without user information starts with them. -/
def originText (url : Url) : List Char :=
  url.scheme ++ "://".toList ++ (url.host?.map Host.text).getD [] ++
    (url.authority.map Authority.portText).getD []

/-- Key and value pairs as they are, after a question mark; nothing if there are none. -/
def queryText (pairs : List (String × String)) : List Char :=
  if pairs.isEmpty then []
  else '?' :: ['&'].intercalate (pairs.map fun (key, value) => key.toList ++ '=' :: value.toList)

/-- The root of an interface: an http or https URL that is read and has no user information. -/
structure IsRoot (url : Url) : Prop where
  read : ∃ text, parse text = .ok url
  scheme : url.scheme = "http".toList ∨ url.scheme = "https".toList
  user : url.withoutUser = url

theorem IsRoot.exists_isWeb (h : url.IsRoot) : ∃ authority segments,
    url.authority = some authority ∧ url.IsWeb segments ∧ Path.IsWritten segments := by
  obtain ⟨text, hparse⟩ := h.read
  rcases isPlaced_or_of_parse hparse with
    ⟨authority, segments, hauthority, hpath, hwritten⟩ | ⟨-, hnot⟩
  · exact ⟨authority, segments, hauthority, ⟨h.scheme, hpath⟩, hwritten⟩
  · rcases h.scheme with hscheme | hscheme
    · rw [hscheme] at hnot
      cases hnot
    · rw [hscheme] at hnot
      cases hnot

theorem IsRoot.withoutUser_place (h : url.IsRoot) (segments : List (List Char))
    (query : Option (List Char)) :
    (url.place segments query).withoutUser = url.place segments query := by
  have hauthority : url.withoutUser.authority = url.authority := congrArg Url.authority h.user
  exact congrArg (fun a => Url.mk url.scheme a (.segments segments) query none) hauthority

theorem IsRoot.text_place (h : url.IsRoot) (segments : List (List Char))
    (query : Option (List Char)) : (url.place segments query).text =
      url.originText ++ (Path.segments segments).text ++ (query.map ('?' :: ·)).getD [] := by
  obtain ⟨authority, -, hauthority, -⟩ := h.exists_isWeb
  have huser := congrArg Url.authority h.user
  rw [withoutUser, hauthority, Option.map_some, Option.some.injEq] at huser
  have huserText : authority.userText = [] := by
    rw [← huser]
    rfl
  simp [Url.text, place, placeText, originText, host?, hauthority, Authority.text, huserText]

/-- The URL itself is asked for there, with the usual headers. -/
theorem IsRoot.requestFor_place (h : url.IsRoot) (segments : List (List Char))
    (query : Option (List Char)) (headers : Http.Headers) :
    Http.Network.requestFor headers (url.place segments query) =
      ⟨url.place segments query, headers⟩ := by
  have hbasic : (url.place segments query).authority.bind Http.Headers.basic = none := by
    rw [← h.withoutUser_place, withoutUser]
    cases (url.place segments query).authority with
    | none => rfl
    | some authority => rfl
  rw [Http.Network.requestFor, Http.Headers.forUrl, hbasic, h.withoutUser_place]
  rfl

theorem queryText_eq {pairs : List (String × String)}
    (h : ∀ pair ∈ pairs, pair.1.toList.all Slug.isRegular = true ∧
      pair.2.toList.all Slug.isRegular = true) :
    ((if pairs.isEmpty then none else some (formText pairs)).map ('?' :: ·)).getD [] =
      queryText pairs := by
  have hform : formText pairs =
      ['&'].intercalate (pairs.map fun (key, value) => key.toList ++ '=' :: value.toList) := by
    rw [formText]
    congr 1
    refine List.map_congr_left fun pair hpair => ?_
    obtain ⟨hkey, hvalue⟩ := h pair hpair
    simp only [Percent.encodeForm_eq_self hkey, Percent.encodeForm_eq_self hvalue]
  rw [queryText, hform]
  split_ifs
  · rfl
  · rfl

end Url

/-! ### Below the root -/

variable {forge forge' : Forge} {client : Client} {segments : List (List Char)}

/-- The place of a repository depends on the directory of the interface only. -/
theorem Forge.base_of_directory {api : Url} (h : forge.apiUrl.IsRoot) (h' : api.IsRoot)
    (hscheme : api.scheme = forge.apiUrl.scheme)
    (hauthority : api.authority = forge.apiUrl.authority)
    (hdirectory : Path.directory api.path.text = Path.directory forge.apiUrl.path.text) :
    ({ forge with apiUrl := api } : Forge).base = forge.base := by
  obtain ⟨-, segments, -, hweb, hwritten⟩ := h.exists_isWeb
  obtain ⟨-, segments', -, hweb', hwritten'⟩ := h'.exists_isWeb
  rw [hweb.path, hweb'.path, hwritten.directory_text, hwritten'.directory_text,
    List.append_left_inj] at hdirectory
  -- equal texts of written paths come from equal segments
  have hstem : Path.stem segments' = Path.stem segments :=
    (Path.isWritten_stem hwritten').eq_of_text_eq (Path.isWritten_stem hwritten) hdirectory
  have hreached : forge.repo.reached segments' = forge.repo.reached segments := by
    rw [Slug.reached, Slug.reached, hstem]
  have hbase := @Forge.base_eq { forge with apiUrl := api } segments' hweb'
  rw [hbase, forge.base_eq hweb]
  simp only [hreached, hscheme, hauthority]
  rfl

namespace Client

/-- The path of pull requests below a root, as it is written. -/
theorem text_pathBelow {slug : Slug} (howner : Slug.IsSimplePart slug.owner.toList)
    (hname : Slug.IsSimplePart slug.name.toList) (hwritten : Path.IsWritten segments) :
    (Path.segments (slug.pathBelow segments ++ ["pulls".toList])).text =
      Path.directory (Path.segments segments).text ++ "repos/".toList ++ slug.owner.toList ++
        '/' :: slug.name.toList ++ "/pulls".toList := by
  rw [Slug.pathBelow_eq howner hname, hwritten.directory_text]
  simp [Path.text]

/-- The client of a forge depends on the place of the repository and the token. -/
theorem client_congr (h : forge.client = .ok client) (hbase : forge'.base = forge.base)
    (htoken : forge'.token = forge.token) :
    forge'.client = .ok { client with forge := forge' } := by
  have hheaders : forge'.headers = forge.headers := by
    rw [Forge.headers, Forge.headers, htoken]
  unfold Forge.client at h ⊢
  rw [hheaders, hbase]
  cases hh : forge.headers with
  | error e =>
    rw [hh] at h
    cases h
  | ok headers =>
    rw [hh] at h
    cases hb : forge.base with
    | error e =>
      rw [hb] at h
      cases h
    | ok base =>
      rw [hb] at h
      cases h
      rfl

/-- **The root of an interface is extended, never replaced.**  The first page of pull requests lies
at the origin of the interface, below its path as a directory, and its query is the one that is
asked for; the first request is for this very URL.  Another root with the same origin and directory,
be it with or without a slash at its end and with whatever query and fragment, leads to the same
requests on every network. -/
theorem firstPage_text (forge : Forge) (query : List (String × String))
    (hroot : forge.apiUrl.IsRoot) (htoken : Draft.TokenIsLegal forge)
    (howner : Slug.IsSimplePart forge.repo.owner.toList)
    (hname : Slug.IsSimplePart forge.repo.name.toList)
    (hquery : ∀ pair ∈ query, pair.1.toList.all Slug.isRegular = true ∧
      pair.2.toList.all Slug.isRegular = true) :
    ∃ client first, forge.client = .ok client ∧ client.firstPage "pulls" query = .ok first ∧
      first.text = forge.apiUrl.originText ++ Path.directory forge.apiUrl.path.text ++
        "repos/".toList ++ forge.repo.owner.toList ++ '/' :: forge.repo.name.toList ++
        "/pulls".toList ++ Url.queryText query ∧
      (∀ (net : Http.Network) past, (net.get client.headers first past).2 = past ∨
        ∃ hops, (net.get client.headers first past).2 = past ++ ⟨first, client.headers⟩ :: hops) ∧
      ∀ api : Url, api.IsRoot → api.scheme = forge.apiUrl.scheme →
        api.authority = forge.apiUrl.authority →
        Path.directory api.path.text = Path.directory forge.apiUrl.path.text →
        ∃ client', ({ forge with apiUrl := api } : Forge).client = .ok client' ∧
          client'.firstPage "pulls" query = .ok first ∧
          (∀ net limit count, Listing.take net client'.headers limit count first =
            Listing.take net client.headers limit count first) ∧
          ∀ net limit tag width,
            Draft.compose net limit ⟨{ forge with apiUrl := api }, tag, width⟩ =
              Draft.compose net limit ⟨forge, tag, width⟩ := by
  obtain ⟨authority, segments, hauthority, hweb, hwritten⟩ := hroot.exists_isWeb
  have hplain : forge.repo.IsPlain := ⟨howner.isPlain, hname.isPlain⟩
  -- the base ends in a slash, so the resource takes the place of an empty segment
  let client : Client := ⟨forge, Url.assemble forge.reference forge.apiUrl.scheme
    forge.apiUrl.authority (.segments (forge.repo.reached segments)),
    ⟨Forge.mediaType, Forge.userAgent, forge.token.map ("token " ++ ·)⟩⟩
  let first : Url := forge.apiUrl.place (forge.repo.pathBelow segments ++ ["pulls".toList])
    (if query.isEmpty then none else some (Url.formText query))
  have hclient : forge.client = .ok client := by
    rw [Draft.client_eq_of_legal htoken, forge.base_eq hweb]
    rfl
  have hfirst : client.firstPage "pulls" query = .ok first := by
    rw [@firstPage_eq client (forge.repo.reached segments) ⟨hweb.scheme, rfl⟩,
      Slug.dropLast_reached_iff.2 hplain]
    rfl
  refine ⟨client, first, hclient, hfirst, ?_, ?_, ?_⟩
  · have htext := hroot.text_place (forge.repo.pathBelow segments ++ ["pulls".toList])
      (if query.isEmpty then none else some (Url.formText query))
    rw [text_pathBelow howner hname hwritten, Url.queryText_eq hquery, ← hweb.path] at htext
    simpa only [List.append_assoc] using htext
  · intro net past
    have hrequests := net.get_requests client.headers first past
    rwa [hroot.requestFor_place] at hrequests
  · intro api hapi hscheme hauthority' hdirectory
    have hbase := Forge.base_of_directory hroot hapi hscheme hauthority' hdirectory
    -- base and headers are the same, and nothing else of the client is looked at
    have hclient' := client_congr hclient hbase rfl
    refine ⟨_, hclient', hfirst, fun net limit count => rfl, fun net limit tag width => ?_⟩
    rw [Draft.compose_of_client hclient', Draft.compose_of_client hclient]
    rfl

theorem firstPage_text_sample : ∃ (api api' : Url) (client client' : Client) (first : Url),
    Url.parse "https://forge/api/v3?key=1#top".toList = .ok api ∧
      Url.parse "https://forge/api/v3/".toList = .ok api' ∧
      (⟨⟨"me", "it.js"⟩, api, "", some "secret"⟩ : Forge).client = .ok client ∧
      (⟨⟨"me", "it.js"⟩, api', "", some "secret"⟩ : Forge).client = .ok client' ∧
      client.firstPage "pulls" [("state", "closed"), ("page", "2")] = .ok first ∧
      client'.firstPage "pulls" [("state", "closed"), ("page", "2")] = .ok first ∧
      first.text = "https://forge/api/v3/repos/me/it.js/pulls?state=closed&page=2".toList := by
  let api : Url := { Url.https "forge" ["api", "v3"] (some "key=1") with fragment := "top".toList }
  let api' : Url := Url.https "forge" ["api", "v3", ""] none
  have hparse : Url.parse "https://forge/api/v3?key=1#top".toList = .ok api := by decide +kernel
  have hparse' : Url.parse "https://forge/api/v3/".toList = .ok api' := by decide +kernel
  obtain ⟨client, first, hclient, hfirst, htext, -, hsame⟩ :=
    firstPage_text ⟨⟨"me", "it.js"⟩, api, "", some "secret"⟩ [("state", "closed"), ("page", "2")]
      ⟨⟨_, hparse⟩, .inr rfl, rfl⟩ (by rintro _ ⟨⟩; decide +kernel)
      ⟨by decide +kernel, by decide +kernel, by decide +kernel⟩
      ⟨by decide +kernel, by decide +kernel, by decide +kernel⟩ (by decide +kernel)
  obtain ⟨client', hclient', hfirst', -⟩ :=
    hsame api' ⟨⟨_, hparse'⟩, .inr rfl, rfl⟩ rfl rfl (by decide +kernel)
  exact ⟨api, api', client, client', first, hparse, hparse', hclient, hclient', hfirst, hfirst',
    htext.trans (by decide +kernel)⟩

end Client

end ReleaseDraft
