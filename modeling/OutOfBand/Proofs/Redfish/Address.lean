import OutOfBand.Proofs.Sequence
import OutOfBand.Proofs.Url
import OutOfBand.Redfish.Address

namespace OutOfBand.Redfish.Address

open Url

/-- A path without the slashes at its end. -/
def unslashed (path : List Char) : List Char := dropEndWhile (· = '/') path

/-- The last segment of a path. -/
def lastSegment (path : List Char) : List Char := (path.reverse.takeWhile (· ≠ '/')).reverse

/-- The address a transport, an authority and a path make up. -/
def assembled (transport authority path : List Char) : Address where
  baseUrl := String.ofList (transport ++ "://".toList ++ authority)
  systemPath := String.ofList (unslashed path)
  systemId := String.ofList (lastSegment (unslashed path))

/-- A URL is an address if its scheme stands for a transport and it has an authority and a segment
at its end. -/
theorem ofUrl_eq_ok_iff {u : Url} {a : Address} : ofUrl u = .ok a ↔
    ∃ transport, transportOf u.scheme = .ok transport ∧ isTransport transport = true ∧
      u.authority ≠ [] ∧ lastSegment (unslashed u.path) ≠ [] ∧
      assembled transport u.authority u.path = a := by
  rw [ofUrl, bind_eq_ok_iff]
  refine exists_congr fun transport => and_congr_right fun _ => ?_
  rw [guarded_eq_ok_iff, guarded_eq_ok_iff, guarded_eq_ok_iff]
  simp only [Bool.not_eq_true', Bool.not_eq_false, List.isEmpty_iff]
  exact Iff.rfl.and (Iff.rfl.and (Iff.rfl.and (iff_of_eq (Except.ok.injEq _ _))))

theorem parseChars_of_ne_nil {s : List Char} (h : s ≠ []) : parseChars s =
    (checkAuthority (parts s).authority).mapError .badUrl >>= fun _ => ofUrl (parts s) := by
  rw [parseChars, split_eq, if_neg (by simpa using h)]
  cases checkAuthority (parts s).authority <;> rfl

theorem parseChars_eq_ok_iff {s : List Char} {a : Address} : parseChars s = .ok a ↔
    checkAuthority (parts s).authority = .ok () ∧ ofUrl (parts s) = .ok a := by
  by_cases hs : s = []
  · subst hs
    have hnone : ∀ a, ofUrl (parts []) ≠ .ok a := fun a h => by
      obtain ⟨t, ht, hknown, -⟩ := ofUrl_eq_ok_iff.mp h
      obtain rfl : [] = t := Except.ok.inj ht
      exact absurd hknown (by decide)
    simp [parseChars, hnone]
  · rw [parseChars_of_ne_nil hs, bind_eq_ok_iff]
    simp only [mapError_eq_ok_iff]
    constructor
    · rintro ⟨_, hauthority, h⟩
      exact ⟨hauthority, h⟩
    · rintro ⟨hauthority, h⟩
      exact ⟨_, hauthority, h⟩

theorem parse_eq_ok_iff {text : String} {a : Address} :
    parse text = .ok a ↔ parseChars text.toList = .ok a := by
  rw [parse]
  cases parseChars text.toList <;> simp

theorem isForeseen_of_ofUrl {u : Url} {f : AddressFault} (h : ofUrl u = .error f) (text : String) :
    (InvalidAddress.mk text f).isForeseen = true := by
  rw [ofUrl, bind_eq_error_iff] at h
  obtain hdriver | ⟨t, -, h⟩ := h
  · rw [transportOf] at hdriver
    split at hdriver
    next =>
      split at hdriver
      next => cases hdriver
      next => cases hdriver; rfl
    next => cases hdriver
  · rw [guarded_eq_error_iff, guarded_eq_error_iff, guarded_eq_error_iff] at h
    obtain ⟨-, rfl⟩ | ⟨-, ⟨-, rfl⟩ | ⟨-, ⟨-, rfl⟩ | ⟨-, h⟩⟩⟩ := h
    · rfl
    · rfl
    · rfl
    · cases h

/-- Only a broken authority keeps a text from being read or refused. -/
theorem isForeseen_iff_of_parse {text : String} {e : InvalidAddress} (h : parse text = .error e) :
    e.address = text ∧
      (e.isForeseen = true ↔ checkAuthority (parts text.toList).authority = .ok ()) := by
  obtain ⟨f, hf, rfl⟩ : ∃ f, parseChars text.toList = .error f ∧ ⟨text, f⟩ = e := by
    rw [parse] at h
    cases hp : parseChars text.toList with
    | ok a => simp [hp] at h
    | error f => exact ⟨f, rfl, by simpa [hp] using h⟩
  refine ⟨rfl, ?_⟩
  by_cases hempty : text.toList = []
  · rw [hempty] at hf ⊢
    cases hf
    exact iff_of_true rfl rfl
  · rw [parseChars_of_ne_nil hempty, bind_eq_error_iff] at hf
    rcases hf with hauthority | ⟨_, hauthority, hofUrl⟩
    · obtain ⟨u, hu, rfl⟩ := mapError_eq_error_iff.mp hauthority
      simp [InvalidAddress.isForeseen, hu]
    · exact iff_of_true (isForeseen_of_ofUrl hofUrl text) (mapError_eq_ok_iff.mp hauthority)

section Assembled

variable {scheme transport authority path tail : List Char}

theorem parseChars_append (hscheme : IsScheme scheme)
    (htransport : transportOf (lowerAscii scheme) = .ok transport)
    (hknown : isTransport transport = true) (hfits : Fits authority path)
    (hauthority : checkAuthority authority = .ok ()) (hne : authority ≠ [])
    (hid : lastSegment (unslashed path) ≠ []) (htail : ∀ c ∈ tail.head?, c = '?' ∨ c = '#') :
    parseChars (scheme ++ ':' :: '/' :: '/' :: (authority ++ (path ++ tail))) =
      .ok (assembled transport authority path) := by
  have hparts := parts_append hscheme hfits htail
  rw [parseChars_eq_ok_iff, hparts, ofUrl_eq_ok_iff]
  exact ⟨hauthority, transport, htransport, hknown, hne, hid, rfl⟩

end Assembled

theorem lastSegment_append_slash (s : List Char) {t : List Char} (h : '/' ∉ t) :
    lastSegment (s ++ '/' :: t) = t := by
  have htake : (t.reverse ++ '/' :: s.reverse).takeWhile (· ≠ '/') = t.reverse := by
    refine takeWhile_append_of_head (fun c hc => ?_) (by simp)
    have hne : c ≠ '/' := fun hslash => h (hslash ▸ List.mem_reverse.mp hc)
    simpa using hne
  rw [lastSegment, List.reverse_append, List.reverse_cons, List.append_assoc, List.singleton_append,
    htake, List.reverse_reverse]

theorem unslashed_append_replicate {s : List Char} (h : ∀ c ∈ s.getLast?, c ≠ '/') (n : Nat) :
    unslashed (s ++ List.replicate n '/') = s := by
  have hslashes : ∀ c ∈ List.replicate n '/', decide (c = '/') = true := fun c hc => by
    simp [List.eq_of_mem_replicate hc]
  have hend : s.reverse.dropWhile (· = '/') = s.reverse := by
    refine dropWhile_eq_self_of_head fun c hc => ?_
    simpa using h c (by simpa using hc)
  rw [unslashed, dropEndWhile, List.reverse_append, List.reverse_replicate,
    List.dropWhile_append_of_pos hslashes, hend, List.reverse_reverse]

theorem isPrefix_unslashed (s : List Char) : unslashed s <+: s := by
  rw [unslashed, dropEndWhile, ← List.reverse_suffix, List.reverse_reverse]
  exact List.dropWhile_suffix _

theorem getLast?_unslashed (s : List Char) : ∀ c ∈ (unslashed s).getLast?, c ≠ '/' := by
  intro c hc
  rw [unslashed, dropEndWhile, List.getLast?_reverse] at hc
  have h := List.head?_dropWhile_not (· = '/') s.reverse
  rw [Option.mem_def.mp hc] at h
  simpa using h

theorem unslashed_unslashed (s : List Char) : unslashed (unslashed s) = unslashed s := by
  simpa using unslashed_append_replicate (getLast?_unslashed s) 0

theorem isTransport_iff {t : List Char} :
    isTransport t = true ↔ t = "http".toList ∨ t = "https".toList := by
  simp [isTransport]

/-- What a scheme in lower case stands for: itself, what a driver's name is put in front of, or
HTTPS for a driver's name alone. -/
inductive StandsFor : List Char → List Char → Prop where
  | plain {t : List Char} (ht : isTransport t = true) : StandsFor t t
  | driven {d : String} {t : List Char} (hd : d ∈ drivers) (ht : isTransport t = true) :
      StandsFor (d.toList ++ '+' :: t) t
  | driver {d : String} (hd : d ∈ drivers) : StandsFor d.toList "https".toList

namespace StandsFor

variable {scheme transport : List Char}

theorem isTransport_eq_true (h : StandsFor scheme transport) : isTransport transport = true := by
  cases h with
  | plain ht => exact ht
  | driven _ ht => exact ht
  | driver _ => decide

theorem plus_not_mem_driver : ∀ d ∈ drivers, '+' ∉ d.toList := by decide

theorem transportOf_eq (h : StandsFor scheme transport) : transportOf scheme = .ok transport := by
  cases h with
  | plain ht => obtain rfl | rfl := isTransport_iff.mp ht <;> decide
  | @driven d t hd _ =>
    have hcut : cutAt ['+'] (d.toList ++ '+' :: transport) = some (d.toList, transport) :=
      cutAt_append (plus_not_mem_driver d hd) transport
    simp [transportOf, hcut, hd]
  | @driver d hd =>
    simp [transportOf, cutAt_eq_none_of_not_mem (plus_not_mem_driver d hd), hd]

theorem isScheme_of_driver {d : String} (hd : d ∈ drivers) : IsScheme d.toList :=
  have hall : ∀ d ∈ drivers, (d.toList.head?.any Char.isAlpha && d.toList.all isSchemeChar) = true :=
    by decide
  .of_check (hall d hd)

theorem isScheme_of_transport {t : List Char} (ht : isTransport t = true) : IsScheme t := by
  obtain rfl | rfl := isTransport_iff.mp ht <;> exact .of_check rfl

theorem isScheme (h : StandsFor scheme transport) : IsScheme scheme := by
  cases h with
  | plain ht => exact isScheme_of_transport ht
  | @driven d t hd ht =>
    obtain ⟨⟨c, hc, halpha⟩, hchars⟩ := isScheme_of_driver hd
    refine ⟨⟨c, by rw [List.head?_append, hc]; rfl, halpha⟩, ?_⟩
    simp only [List.mem_append, List.mem_cons]
    rintro e (he | rfl | he)
    · exact hchars e he
    · rfl
    · exact (isScheme_of_transport ht).chars e he
  | driver hd => exact isScheme_of_driver hd

end StandsFor

theorem lowerAscii_of_isTransport {t : List Char} (ht : isTransport t = true) :
    lowerAscii t = t := by
  obtain rfl | rfl := isTransport_iff.mp ht <;> decide

theorem parse_again {text : String} {a : Address} (h : parse text = .ok a) :
    parse (a.baseUrl ++ a.systemPath) = .ok a := by
  obtain ⟨hauthority, hofUrl⟩ := parseChars_eq_ok_iff.mp (parse_eq_ok_iff.mp h)
  obtain ⟨t, -, hknown, hne, hid, rfl⟩ := ofUrl_eq_ok_iff.mp hofUrl
  -- the path has lost its slashes at the end, and fits as well without them
  have hfits := fits_parts hne
  have hshort : Fits (parts text.toList).authority (unslashed (parts text.toList).path) :=
    hfits.of_prefix (isPrefix_unslashed _)
  have hstands : StandsFor (lowerAscii t) t := by
    rw [lowerAscii_of_isTransport hknown]
    exact .plain hknown
  have hend : ∀ c ∈ ([] : List Char).head?, c = '?' ∨ c = '#' := by simp
  have hagain := parseChars_append hstands.isScheme.of_lower hstands.transportOf_eq hknown hshort
    hauthority hne (by rwa [unslashed_unslashed]) hend
  rw [parse_eq_ok_iff]
  simpa [assembled, unslashed_unslashed] using hagain

/-- A character of ASCII that is no control. -/
def IsPrintableAscii (c : Char) : Prop := 0x20 ≤ c.toNat ∧ c.toNat ≤ 0x7e

instance (c : Char) : Decidable (IsPrintableAscii c) := inferInstanceAs (Decidable (_ ∧ _))

theorem IsPrintableAscii.isLineBreakOrTab_eq_false {c : Char} (h : IsPrintableAscii c) :
    isLineBreakOrTab c = false := by
  simp only [isLineBreakOrTab, Bool.or_eq_false_iff, decide_eq_false_iff_not]
  refine ⟨⟨?_, ?_⟩, ?_⟩ <;> rintro rfl <;> exact absurd h (by decide)

theorem IsPrintableAscii.isDisguised_eq_false {c : Char} (h : IsPrintableAscii c) :
    isDisguised c = false := by
  have hlarge : ∀ n ∈ disguisedDelimiters, 0x7e < n := by decide
  rw [isDisguised, List.contains_eq_mem, decide_eq_false_iff_not]
  exact fun hmem => absurd (hlarge _ hmem) (Nat.not_lt.mpr h.2)

/-- A way to write an address: a scheme in any case, an authority, a path with any number of slashes
after its last segment, and a query, a fragment or nothing behind it. -/
structure Spelling where
  scheme : List Char
  transport : List Char
  authority : List Char
  /-- The segments of the path in front of its last. -/
  before : List (List Char)
  id : List Char
  slashes : Nat
  tail : List Char
  stands : StandsFor (lowerAscii scheme) transport
  authority_ne : authority ≠ []
  authority_chars : ∀ c ∈ authority, IsPrintableAscii c ∧ c ∉ ['/', '?', '#', '[', ']']
  id_ne : id ≠ []
  segment_chars : ∀ s ∈ before ++ [id], ∀ c ∈ s, IsPrintableAscii c ∧ c ∉ ['/', '?', '#']
  tail_head : ∀ c ∈ tail.head?, c = '?' ∨ c = '#'

namespace Spelling

variable (w : Spelling)

/-- The segments, each after a slash. -/
def path : List Char := (w.before ++ [w.id]).flatMap ('/' :: ·)

def text : String :=
  String.ofList (w.scheme ++ "://".toList ++ w.authority ++ w.path ++
    List.replicate w.slashes '/' ++ w.tail)

/-- What is spelled. -/
def address : Address where
  baseUrl := String.ofList (w.transport ++ "://".toList ++ w.authority)
  systemPath := String.ofList w.path
  systemId := String.ofList w.id

variable {w}

theorem slash_not_mem_id : '/' ∉ w.id := fun h => by
  simpa using (w.segment_chars w.id (by simp) '/' h).2

theorem path_eq : w.path = w.before.flatMap ('/' :: ·) ++ '/' :: w.id := by
  simp [path]

theorem lastSegment_path : lastSegment w.path = w.id := by
  rw [path_eq, lastSegment_append_slash _ slash_not_mem_id]

theorem unslashed_path : unslashed (w.path ++ List.replicate w.slashes '/') = w.path := by
  refine unslashed_append_replicate (fun c hc => ?_) _
  rintro rfl
  rw [path_eq, List.getLast?_append_of_ne_nil _ (by simp),
    List.getLast?_cons_of_ne_nil w.id_ne] at hc
  exact slash_not_mem_id (List.mem_of_getLast? hc)

theorem fits : Fits w.authority (w.path ++ List.replicate w.slashes '/') where
  inAuthority c hc := by
    obtain ⟨hprintable, hend⟩ := w.authority_chars c hc
    simp only [List.mem_cons, not_or] at hend
    exact ⟨by simp [isAuthorityEnd, hend], hprintable.isLineBreakOrTab_eq_false⟩
  inPath c hc := by
    -- the path has slashes, and otherwise what is in its segments
    obtain rfl | ⟨s, hs, hcs⟩ : c = '/' ∨ ∃ s ∈ w.before ++ [w.id], c ∈ s := by
      rcases List.mem_append.mp hc with hc | hc
      · obtain ⟨s, hs, hcs⟩ := List.mem_flatMap.mp hc
        exact (List.mem_cons.mp hcs).imp_right fun hcs => ⟨s, hs, hcs⟩
      · exact .inl (List.eq_of_mem_replicate hc)
    · decide
    · obtain ⟨hprintable, hend⟩ := w.segment_chars s hs c hcs
      simp only [List.mem_cons, not_or] at hend
      exact ⟨hend.2.1, hend.2.2.1, hprintable.isLineBreakOrTab_eq_false⟩
  rooted c hc := by
    rw [path] at hc
    cases hbefore : w.before with
    | nil => simpa [hbefore, eq_comm] using hc
    | cons s ss => simpa [hbefore, eq_comm] using hc

theorem checkAuthority_eq : checkAuthority w.authority = .ok () := by
  have hopening : '[' ∉ w.authority := fun h => by simpa using (w.authority_chars '[' h).2
  have hclosing : ']' ∉ w.authority := fun h => by simpa using (w.authority_chars ']' h).2
  have hdisguised : w.authority.any isDisguised = false :=
    List.any_eq_false.mpr fun c hc => by simp [(w.authority_chars c hc).1.isDisguised_eq_false]
  simp [checkAuthority, hopening, hclosing, hdisguised, pure, Except.pure]

theorem parse_text (w : Spelling) : parse w.text = .ok w.address := by
  have h := parseChars_append w.stands.isScheme.of_lower w.stands.transportOf_eq
    w.stands.isTransport_eq_true w.fits w.checkAuthority_eq w.authority_ne
    (by rw [unslashed_path, lastSegment_path]; exact w.id_ne) w.tail_head
  have haddress : assembled w.transport w.authority (w.path ++ List.replicate w.slashes '/') =
      w.address := by
    rw [assembled, unslashed_path, lastSegment_path]
    rfl
  rw [parse_eq_ok_iff, ← haddress, ← h]
  simp [text]

end Spelling

/-- What is spelled is read, and what was read, however it was spelled, is read again from its base
and its path. -/
theorem parse_recovers : (∀ w : Spelling, parse w.text = .ok w.address) ∧
    ∀ text a, parse text = .ok a → parse (a.baseUrl ++ a.systemPath) = .ok a :=
  ⟨Spelling.parse_text, fun _ _ => parse_again⟩

namespace Sample

def spelling : Spelling where
  scheme := "iDRAC-Redfish+HTTPS".toList
  transport := "https".toList
  authority := "root@bmc:8443".toList
  before := ["redfish".toList, [], "a [1]".toList]
  id := "System.Embedded.1".toList
  slashes := 2
  tail := "?page=/#é".toList
  stands := .driven (d := "idrac-redfish") (by decide) (by decide)
  authority_ne := by decide
  authority_chars := by simp [IsPrintableAscii]
  id_ne := by decide
  segment_chars := by simp [IsPrintableAscii]
  tail_head := by simp

end Sample

theorem spelling_recovered :
    parse "iDRAC-Redfish+HTTPS://root@bmc:8443/redfish//a [1]/System.Embedded.1//?page=/#é" =
        .ok ⟨"https://root@bmc:8443", "/redfish//a [1]/System.Embedded.1", "System.Embedded.1"⟩ ∧
      parse ("https://root@bmc:8443" ++ "/redfish//a [1]/System.Embedded.1") =
        .ok ⟨"https://root@bmc:8443", "/redfish//a [1]/System.Embedded.1", "System.Embedded.1"⟩ :=
  have h := parse_recovers.1 Sample.spelling
  ⟨h, parse_recovers.2 _ _ h⟩

end OutOfBand.Redfish.Address
