import Linklint.Js.Url
import Linklint.Platform

/-!
# Exact URLs

The canonical text under which a feed lists a URL and a query finds it. The parts
of the text can be told apart, so equal texts come from equal parts.
-/

namespace Linklint

def defaultPort (scheme : Text) : Text :=
  if scheme = text "https:" then text "443" else text "80"

section
variable (P : Platform) (api : UrlApi) (domainToASCII : Text → Text)

/-- `null` for what is no absolute web URL. -/
def canonicalizeUrl (raw : Text) : Option Text :=
  if raw.trim = [] then none
  else
    match api.parse raw.trim with
    | none => none
    | some url =>
        let scheme := P.toLowerCase url.protocol
        if scheme ≠ text "http:" ∧ scheme ≠ text "https:" then none
        else
          let host := P.toLowerCase (domainToASCII url.hostname)
          if host = [] then none
          else
            let port :=
              if defaultPort scheme = url.port ∨ url.port = [] then [] else unit ':' :: url.port
            some (scheme ++ text "//" ++ host ++ port ++ url.pathname ++ url.search)

end

/-! ### Parsed web URLs -/

/-- The URL without what a canonical text leaves out. -/
def Url.bare (url : Url) : Url := { url with username := [], password := [], hash := [] }

/-- A unit of a serialized host: visible, in lower case, and no separator of paths. -/
def HostUnit (u : CodeUnit) : Prop := VisibleAscii u ∧ asciiLower u = u ∧ u ≠ unit '/'

/-- A parsed URL of a web scheme, as the URL standard serializes its parts. -/
structure WebUrl (url : Url) : Prop where
  scheme : url.protocol = text "http:" ∨ url.protocol = text "https:"
  host : ∀ u ∈ url.hostname, HostUnit u
  literal : unit ':' ∈ url.hostname → url.hostname.getLast? = some (unit ']')
  port : ∀ u ∈ url.port, isDigit u = true
  nonDefault : url.port ≠ defaultPort url.protocol
  rooted : url.pathname.head? = some (unit '/')
  path : ∀ u ∈ url.pathname, VisibleAscii u ∧ u ≠ unit '?'
  search : url.search = [] ∨ url.search.head? = some (unit '?')
  query : ∀ u ∈ url.search, VisibleAscii u

/-- What the URL standard says of the parser, the serializer and the ASCII form of a domain. -/
structure UrlLaws (P : Platform) (api : UrlApi) (domainToASCII : Text → Text) : Prop where
  web : ∀ s url, api.parse s = some url →
    P.toLowerCase url.protocol = text "http:" ∨ P.toLowerCase url.protocol = text "https:" →
      WebUrl url
  hostname : ∀ s url, api.parse s = some url → WebUrl url →
    ∃ written, url.hostname = domainToASCII written
  domain : ∀ s, domainToASCII (domainToASCII s) = domainToASCII s
  serialized : ∀ s url, api.parse s = some url → WebUrl url →
    api.href url.bare = url.origin ++ url.pathname ++ url.search
  reparsed : ∀ s url, api.parse s = some url → WebUrl url → api.parse (api.href url.bare) = some url.bare

/-- Both URLs name the same resource of the same server. -/
structure SameTarget (P : Platform) (domainToASCII : Text → Text) (url url' : Url) : Prop where
  scheme : url.protocol = url'.protocol
  host : P.toLowerCase (domainToASCII url.hostname) = P.toLowerCase (domainToASCII url'.hostname)
  port : (if url.port = [] then defaultPort url.protocol else url.port) =
    if url'.port = [] then defaultPort url'.protocol else url'.port
  pathname : url.pathname = url'.pathname
  search : url.search = url'.search

/-! ### The parts of a canonical text -/

theorem visible_of_digit {u : CodeUnit} (h : isDigit u = true) : VisibleAscii u := by
  simp only [isDigit, Bool.and_eq_true, decide_eq_true_eq] at h
  exact ⟨by omega, by omega⟩

theorem visible_of_all {s : Text}
    (h : (s.all fun u => decide (0x20 < u.toNat) && decide (u.toNat < 0x7F)) = true) :
    ∀ u ∈ s, VisibleAscii u := by
  simpa [VisibleAscii] using h

variable {P : Platform} {api : UrlApi} {domainToASCII : Text → Text}

theorem WebUrl.lower_host {url : Url} (h : WebUrl url) :
    P.toLowerCase url.hostname = url.hostname := by
  rw [toLowerCase_visible fun u hu => (h.host u hu).1]
  rw [List.map_congr_left fun u hu => (h.host u hu).2.1, List.map_id']

theorem WebUrl.visible_protocol {url : Url} (h : WebUrl url) :
    ∀ u ∈ url.protocol, VisibleAscii u := by
  rcases h.scheme with hscheme | hscheme
  · rw [hscheme]
    exact visible_of_all (by decide)
  · rw [hscheme]
    exact visible_of_all (by decide)

theorem WebUrl.lower_protocol {url : Url} (h : WebUrl url) :
    P.toLowerCase url.protocol = url.protocol := by
  rw [toLowerCase_visible h.visible_protocol]
  rcases h.scheme with hscheme | hscheme
  · rw [hscheme]
    decide
  · rw [hscheme]
    decide

/-- The port as the canonical text has it. -/
def Url.portText (url : Url) : Text := if url.port = [] then [] else unit ':' :: url.port

/-- The canonical text of a parsed web URL. -/
def Url.exactText (url : Url) : Text :=
  url.protocol ++ text "//" ++ url.hostname ++ url.portText ++ url.pathname ++ url.search

theorem UrlLaws.lower_ascii (laws : UrlLaws P api domainToASCII) {s : Text} {url : Url}
    (hparse : api.parse s = some url) (web : WebUrl url) :
    P.toLowerCase (domainToASCII url.hostname) = url.hostname := by
  obtain ⟨written, hwritten⟩ := laws.hostname s url hparse web
  have hfixed : domainToASCII url.hostname = url.hostname := by
    rw [hwritten, laws.domain]
  rw [hfixed, web.lower_host]

theorem WebUrl.port_text {url : Url} (h : WebUrl url) :
    (if defaultPort url.protocol = url.port ∨ url.port = [] then [] else unit ':' :: url.port) =
      url.portText := by
  have hport : (defaultPort url.protocol = url.port ∨ url.port = []) ↔ url.port = [] := by
    constructor
    · rintro (hdefault | hempty)
      · exact absurd hdefault.symm h.nonDefault
      · exact hempty
    · exact Or.inr
  rw [Url.portText]
  by_cases hempty : url.port = []
  · rw [if_pos (hport.mpr hempty), if_pos hempty]
  · rw [if_neg (mt hport.mp hempty), if_neg hempty]

/-- What has a canonical text is a web URL with a host, and the text is made of its parts. -/
theorem UrlLaws.canonicalizeUrl_iff (laws : UrlLaws P api domainToASCII) {raw key : Text} :
    canonicalizeUrl P api domainToASCII raw = some key ↔
      raw.trim ≠ [] ∧ ∃ url, api.parse raw.trim = some url ∧ WebUrl url ∧ url.hostname ≠ [] ∧
        key = url.exactText := by
  rw [canonicalizeUrl]
  by_cases hblank : raw.trim = []
  · simp [hblank]
  · rw [if_neg hblank]
    cases hparse : api.parse raw.trim with
    | none => simp
    | some url =>
        by_cases hscheme : P.toLowerCase url.protocol = text "http:" ∨
            P.toLowerCase url.protocol = text "https:"
        · have web := laws.web _ _ hparse hscheme
          have hknown : ¬ (url.protocol ≠ text "http:" ∧ url.protocol ≠ text "https:") := by
            rintro ⟨hhttp, hhttps⟩
            exact web.scheme.elim hhttp hhttps
          simp only [laws.lower_ascii hparse web, web.lower_protocol, if_neg hknown, web.port_text]
          by_cases hempty : url.hostname = []
          · simp [hempty]
          · rw [if_neg hempty, Option.some.injEq]
            constructor
            · rintro rfl
              exact ⟨hblank, url, rfl, web, hempty, rfl⟩
            · rintro ⟨-, _, heq, -, -, rfl⟩
              cases heq
              rfl
        · have hforeign : P.toLowerCase url.protocol ≠ text "http:" ∧
              P.toLowerCase url.protocol ≠ text "https:" := not_or.mp hscheme
          simp only [if_pos hforeign, reduceCtorEq, false_iff, not_and, not_exists]
          intro _ _ heq web
          cases heq
          exact absurd web.scheme (by rwa [web.lower_protocol] at hscheme)

/-! ### Equal texts have equal parts -/

theorem cut_inj {sep : CodeUnit} {a a' b b' : Text} (ha : sep ∉ a) (ha' : sep ∉ a')
    (hb : b = [] ∨ b.head? = some sep) (hb' : b' = [] ∨ b'.head? = some sep)
    (h : a ++ b = a' ++ b') : a = a' ∧ b = b' := by
  have hcut {s t : Text} (hs : sep ∉ s) (ht : t = [] ∨ t.head? = some sep) :
      (Text.cutFirst sep (s ++ t)).1 = s := by
    rcases ht with rfl | hsep
    · rw [List.append_nil, cutFirst_of_not_mem hs]
    · obtain ⟨rest, rfl⟩ := List.head?_eq_some_iff.mp hsep
      rw [cutFirst_append hs]
  have hsame : a = a' := by
    rw [← hcut ha hb, h, hcut ha' hb']
  subst hsame
  exact ⟨rfl, List.append_cancel_left h⟩

theorem WebUrl.colon_not_port {url : Url} (h : WebUrl url) : unit ':' ∉ url.port := by
  intro hcolon
  exact absurd (h.port _ hcolon) (by decide)

/-- The host of a web URL does not go over into its port. -/
theorem WebUrl.not_host_of_port {url url' : Url} (h : WebUrl url) (h' : WebUrl url')
    (hport : url'.port ≠ []) : url.hostname ≠ url'.hostname ++ unit ':' :: url'.port := by
  intro heq
  have hlast := h.literal (by rw [heq]; simp)
  rw [heq, List.getLast?_append, List.getLast?_cons, Option.some_or] at hlast
  obtain ⟨digits, last, hdigits⟩ := List.eq_nil_or_concat url'.port |>.resolve_left hport
  rw [hdigits] at hlast
  have hdigit := h'.port last (by rw [hdigits]; simp)
  simp at hlast
  rw [hlast] at hdigit
  exact absurd hdigit (by decide)

theorem WebUrl.authority_inj {url url' : Url} (h : WebUrl url) (h' : WebUrl url')
    (heq : url.hostname ++ url.portText = url'.hostname ++ url'.portText) :
    url.hostname = url'.hostname ∧ url.port = url'.port := by
  rw [Url.portText, Url.portText] at heq
  by_cases hport : url.port = []
  · by_cases hport' : url'.port = []
    · rw [if_pos hport, if_pos hport', List.append_nil, List.append_nil] at heq
      exact ⟨heq, by rw [hport, hport']⟩
    · rw [if_pos hport, if_neg hport', List.append_nil] at heq
      exact absurd heq (h.not_host_of_port h' hport')
  · by_cases hport' : url'.port = []
    · rw [if_neg hport, if_pos hport', List.append_nil] at heq
      exact absurd heq.symm (h'.not_host_of_port h hport)
    · rw [if_neg hport, if_neg hport'] at heq
      have hcut := congrArg (Text.cutLast (unit ':')) heq
      rw [cutLast_append h.colon_not_port, cutLast_append h'.colon_not_port] at hcut
      exact ⟨Option.some.inj (Prod.mk.inj hcut).1, (Prod.mk.inj hcut).2⟩

theorem WebUrl.slash_not_authority {url : Url} (h : WebUrl url) :
    unit '/' ∉ url.hostname ++ url.portText := by
  intro hmem
  rcases List.mem_append.mp hmem with hhost | hport
  · exact (h.host _ hhost).2.2 rfl
  · rw [Url.portText] at hport
    split at hport
    · cases hport
    · rcases List.mem_cons.mp hport with hcolon | hdigit
      · exact absurd hcolon (by decide)
      · exact absurd (h.port _ hdigit) (by decide)

theorem WebUrl.protocol_eq {url url' : Url} (h : WebUrl url) (h' : WebUrl url')
    (heq : url.exactText = url'.exactText) : url.protocol = url'.protocol := by
  have htake := congrArg (List.take 5) heq
  have hhttp (rest : Text) : (text "http:" ++ rest).take 5 = text "http:" :=
    List.take_left' (by decide)
  have hhttps (rest : Text) : (text "https:" ++ rest).take 5 = text "https" :=
    List.take_append_of_le_length (by decide)
  have hdistinct : text "http:" ≠ text "https" := by decide
  simp only [Url.exactText, List.append_assoc] at htake
  rcases h.scheme with hscheme | hscheme
  · rcases h'.scheme with hscheme' | hscheme'
    · rw [hscheme, hscheme']
    · rw [hscheme, hscheme', hhttp, hhttps] at htake
      exact absurd htake hdistinct
  · rcases h'.scheme with hscheme' | hscheme'
    · rw [hscheme, hscheme', hhttp, hhttps] at htake
      exact absurd htake.symm hdistinct
    · rw [hscheme, hscheme']

/-- The parts of a web URL are read back from its canonical text. -/
theorem WebUrl.exactText_inj {url url' : Url} (h : WebUrl url) (h' : WebUrl url')
    (heq : url.exactText = url'.exactText) :
    url.protocol = url'.protocol ∧ url.hostname = url'.hostname ∧ url.port = url'.port ∧
      url.pathname = url'.pathname ∧ url.search = url'.search := by
  have hprotocol := h.protocol_eq h' heq
  rw [Url.exactText, Url.exactText, hprotocol] at heq
  simp only [List.append_assoc, List.append_cancel_left_eq] at heq
  have hrooted {u : Url} (hu : WebUrl u) : (u.pathname ++ u.search).head? = some (unit '/') := by
    rw [List.head?_append, hu.rooted, Option.some_or]
  have hquery {u : Url} (hu : WebUrl u) : unit '?' ∉ u.pathname := fun hmem => (hu.path _ hmem).2 rfl
  obtain ⟨hauthority, hrest⟩ := cut_inj h.slash_not_authority h'.slash_not_authority
    (Or.inr (hrooted h)) (Or.inr (hrooted h')) (by simpa only [List.append_assoc] using heq)
  obtain ⟨hpath, hsearch⟩ := cut_inj (hquery h) (hquery h') h.search h'.search hrest
  obtain ⟨hhost, hport⟩ := h.authority_inj h' hauthority
  exact ⟨hprotocol, hhost, hport, hpath, hsearch⟩

/-- Inputs of one canonical text name the same resource of the same server. -/
theorem UrlLaws.sameTarget (laws : UrlLaws P api domainToASCII) {raw raw' key : Text}
    (h : canonicalizeUrl P api domainToASCII raw = some key)
    (h' : canonicalizeUrl P api domainToASCII raw' = some key) :
    ∃ url url', api.parse raw.trim = some url ∧ api.parse raw'.trim = some url' ∧
      SameTarget P domainToASCII url url' := by
  obtain ⟨-, url, hparse, web, -, rfl⟩ := laws.canonicalizeUrl_iff.mp h
  obtain ⟨-, url', hparse', web', -, heq⟩ := laws.canonicalizeUrl_iff.mp h'
  obtain ⟨hprotocol, hhost, hport, hpath, hsearch⟩ := web.exactText_inj web' heq
  refine ⟨url, url', hparse, hparse', hprotocol, ?_, ?_, hpath, hsearch⟩
  · rw [hhost]
  · rw [hport, hprotocol]

/-! ### A canonical text is its own canonical text -/

theorem WebUrl.bare {url : Url} (h : WebUrl url) : WebUrl url.bare :=
  ⟨h.scheme, h.host, h.literal, h.port, h.nonDefault, h.rooted, h.path, h.search, h.query⟩

theorem Url.exactText_eq (url : Url) : url.exactText = url.origin ++ url.pathname ++ url.search := by
  rw [Url.exactText, Url.origin, Url.host, Url.portText]
  by_cases hport : url.port = []
  · simp [hport]
  · simp [hport]

theorem WebUrl.visible {url : Url} (h : WebUrl url) : ∀ u ∈ url.exactText, VisibleAscii u := by
  have hport : ∀ u ∈ url.portText, VisibleAscii u := by
    rw [Url.portText]
    split
    · simp
    · intro u hu
      rcases List.mem_cons.mp hu with rfl | hdigit
      · exact ⟨by decide, by decide⟩
      · exact visible_of_digit (h.port u hdigit)
  intro u hu
  simp only [Url.exactText, List.mem_append] at hu
  rcases hu with ((((hu | hu) | hu) | hu) | hu) | hu
  · exact h.visible_protocol u hu
  · exact visible_of_all (by decide) u hu
  · exact (h.host u hu).1
  · exact hport u hu
  · exact (h.path u hu).1
  · exact h.query u hu

theorem UrlLaws.canonicalizeUrl_idempotent (laws : UrlLaws P api domainToASCII) {raw key : Text}
    (h : canonicalizeUrl P api domainToASCII raw = some key) :
    canonicalizeUrl P api domainToASCII key = some key := by
  obtain ⟨-, url, hparse, web, hhost, rfl⟩ := laws.canonicalizeUrl_iff.mp h
  have htrim : url.exactText.trim = url.exactText := trim_of_visible web.visible
  have hne : url.exactText ≠ [] := by
    intro hnil
    have hslashes := congrArg List.length hnil
    simp [Url.exactText, show (text "//").length = 2 by decide] at hslashes
  have hreparsed := laws.reparsed _ _ hparse web
  rw [laws.serialized _ _ hparse web, ← url.exactText_eq] at hreparsed
  apply laws.canonicalizeUrl_iff.mpr
  rw [htrim]
  exact ⟨hne, url.bare, hreparsed, web.bare, hhost, rfl⟩

end Linklint
