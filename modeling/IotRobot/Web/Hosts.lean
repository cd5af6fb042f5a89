import IotRobot.Lib.IpLiteral

/-!
# The host names of the page

`host_allowed` of `logic.py`, with `urlsplit` of Python as far as it goes into the host name
of a URL. A header is accepted by the host that `urlsplit` finds in it, whatever else is in it.
-/

namespace IotRobot.Web

open Lib

set_option autoImplicit false

/-- Where the network location of a URL ends. -/
def netloc_ends : List Char := ['/', '?', '#']

def UNSAFE_URL_BYTES : List Char := ['\t', '\r', '\n']

/-- What differs between versions of Python: which characters are removed from a URL, which
network locations are a `ValueError`, and how a host name is lower-cased. -/
structure UrlSplitter where
  removed : Char → Bool
  invalid : List Char → Bool
  lower : List Char → List Char
  removed_unsafe : ∀ ch, removed ch = true → ch ∈ UNSAFE_URL_BYTES
  lower_colon : ∀ text, ':' ∈ lower text → ':' ∈ text

namespace UrlSplitter
variable (u : UrlSplitter)

/-- The URL behind its two slashes, without what is removed from it. -/
def cleaned (url : List Char) : List Char := url.filter fun ch => !u.removed ch

def splitnetloc (url : List Char) : List Char := url.takeWhile fun ch => decide (ch ∉ netloc_ends)

/-- `_hostinfo` without the port. -/
def hostinfo (netloc : List Char) : List Char :=
  let hostinfo := netloc.rtakeWhile fun ch => decide (ch ≠ '@')
  let (_, have_open_br, bracketed) := partition_at '[' hostinfo
  if have_open_br then (partition_at ']' bracketed).1 else (partition_at ':' hostinfo).1

/-- `urlsplit("//" + url).hostname`; `none` is its `ValueError`. -/
def hostname (url : List Char) : Option (Option (List Char)) :=
  let netloc := splitnetloc (u.cleaned url)
  if u.invalid netloc then none
  else
    let hostname := hostinfo netloc
    if hostname = [] then some none else some (some (u.lower hostname))

end UrlSplitter

def localhost : List Char := "localhost".toList

/-- `hostname.rstrip(".")`. -/
def rstrip (hostname : List Char) : List Char := hostname.rdropWhile (· == '.')

def host_allowed (u : UrlSplitter) (host : Option (List Char)) (names : List (List Char)) : Bool :=
  if ['*'] ∈ names then true
  else
    match host with
    | none => false
    | some host =>
      if host = [] then false
      else
        match u.hostname host with
        | none => false
        | some none => false
        | some (some hostname) =>
          let hostname := rstrip hostname
          if hostname = localhost ∨ hostname ∈ names then true else is_ip_address hostname

/-- A name or an address of this machine. -/
def OwnHost (names : List (List Char)) (hostname : List Char) : Prop :=
  rstrip hostname = localhost ∨ rstrip hostname ∈ names ∨ is_ip_address (rstrip hostname) = true

/-- A URL in its parts: a user, what has the host, and the rest from a slash, a question mark
or a hash on. -/
structure UrlParts (url : List Char) where
  user : List Char
  hostinfo : List Char
  rest : List Char
  whole : url = user ++ hostinfo ++ rest
  user_ends : user = [] ∨ ∃ name, user = name ++ ['@']
  last_user : '@' ∉ hostinfo
  location : ∀ ch ∈ user ++ hostinfo, ch ∉ netloc_ends
  rest_starts : rest = [] ∨ ∃ ch ∈ netloc_ends, ∃ more, rest = ch :: more

/-- The host is what is before a colon, or what is in brackets if there are any. -/
def HostIn (host hostinfo : List Char) : Prop :=
  ('[' ∉ hostinfo ∧ ':' ∉ host ∧ ∃ port, hostinfo = host ++ port ∧ (port = [] ∨ ∃ p, port = ':' :: p)) ∨
  (']' ∉ host ∧ ∃ before after, '[' ∉ before ∧ hostinfo = before ++ '[' :: (host ++ after) ∧
    (after = [] ∨ ∃ a, after = ']' :: a))

/-- A header is taken apart so that this is its host. -/
def HostOf (u : UrlSplitter) (host header : List Char) : Prop :=
  ∃ parts : UrlParts (u.cleaned header), u.invalid (parts.user ++ parts.hostinfo) = false ∧
    HostIn host parts.hostinfo ∧ host ≠ []

theorem hostinfo_iff {netloc host : List Char} : UrlSplitter.hostinfo netloc = host ↔
    HostIn host (netloc.rtakeWhile fun ch => decide (ch ≠ '@')) := by
  unfold UrlSplitter.hostinfo HostIn
  dsimp only
  rcases partition_at_cases '[' (netloc.rtakeWhile fun ch => decide (ch ≠ '@')) with
    hnone | ⟨before, bracketed, hbefore, hsome⟩
  · rw [partition_at_none hnone, if_neg Bool.false_ne_true, partition_at_fst_iff]
    constructor
    · rintro ⟨hhost, port, hport⟩
      exact .inl ⟨hnone, hhost, port, hport⟩
    · rintro (⟨-, hhost, port, hport⟩ | ⟨-, before, after, -, hin, -⟩)
      · exact ⟨hhost, port, hport⟩
      · rw [hin] at hnone
        exact absurd (List.mem_append_right before List.mem_cons_self) hnone
  · rw [hsome, partition_at_cons hbefore, if_pos rfl, partition_at_fst_iff]
    constructor
    · rintro ⟨hhost, after, rfl, hafter⟩
      exact .inr ⟨hhost, before, after, hbefore, rfl, hafter⟩
    · rintro (⟨hnone, -⟩ | ⟨hhost, before', after, hbefore', hin, hafter⟩)
      · exact absurd (List.mem_append_right before List.mem_cons_self) hnone
      · -- the first bracket is in one place
        have hfirst := partition_at_cons (m := bracketed) hbefore
        rw [hin, partition_at_cons hbefore'] at hfirst
        obtain ⟨rfl, -, rfl⟩ := hfirst
        exact ⟨hhost, after, rfl, hafter⟩

namespace UrlParts
variable {url : List Char}

/-- Every URL has its parts. -/
theorem exist (url : List Char) : Nonempty (UrlParts url) := by
  obtain ⟨rest, hwhole, hlocation, hrest⟩ := takeWhile_eq_iff.mp
    (Eq.refl (UrlSplitter.splitnetloc url))
  obtain ⟨user, huser, hinfo, hends⟩ := rtakeWhile_eq_iff.mp
    (Eq.refl ((UrlSplitter.splitnetloc url).rtakeWhile fun ch => decide (ch ≠ '@')))
  rw [huser] at hwhole hlocation
  refine ⟨user, _, rest, hwhole, ?_, ?_, fun ch hch => of_decide_eq_true (hlocation ch hch), ?_⟩
  · cases hreverse : user.reverse with
    | nil => exact .inl (List.reverse_eq_nil_iff.mp hreverse)
    | cons ch name =>
      have hat : ch = '@' := not_not.mp (of_decide_eq_false (hends ch (by rw [hreverse]; rfl)))
      refine .inr ⟨name.reverse, ?_⟩
      rw [← List.reverse_reverse user, hreverse, List.reverse_cons, hat]
  · exact fun hat => of_decide_eq_true (hinfo '@' hat) rfl
  · cases rest with
    | nil => exact .inl rfl
    | cons ch more =>
      exact .inr ⟨ch, not_not.mp (of_decide_eq_false (hrest ch rfl)), more, rfl⟩

theorem splitnetloc_eq (parts : UrlParts url) :
    UrlSplitter.splitnetloc url = parts.user ++ parts.hostinfo := by
  refine takeWhile_eq_iff.mpr ⟨parts.rest, parts.whole, ?_, ?_⟩
  · exact fun ch hch => decide_eq_true (parts.location ch hch)
  · rcases parts.rest_starts with hnil | ⟨ch, hch, more, hmore⟩
    · rw [hnil]
      exact .nil
    · rw [hmore]
      exact .cons (decide_eq_false (not_not.mpr hch))

theorem hostinfo_eq (parts : UrlParts url) :
    (parts.user ++ parts.hostinfo).rtakeWhile (fun ch => decide (ch ≠ '@')) = parts.hostinfo := by
  refine rtakeWhile_eq_iff.mpr ⟨parts.user, rfl, ?_, ?_⟩
  · exact fun ch hch => decide_eq_true fun hat => parts.last_user (hat ▸ hch)
  · rcases parts.user_ends with hnil | ⟨name, hname⟩
    · rw [hnil]
      exact .nil
    · rw [hname, List.reverse_append]
      exact .cons (by decide)

end UrlParts

theorem hostname_iff {u : UrlSplitter} {header hostname : List Char} :
    u.hostname header = some (some hostname) ↔ ∃ host, HostOf u host header ∧ hostname = u.lower host := by
  unfold UrlSplitter.hostname
  dsimp only
  constructor
  · intro h
    obtain ⟨parts⟩ := UrlParts.exist (u.cleaned header)
    rw [parts.splitnetloc_eq] at h
    cases hinvalid : u.invalid (parts.user ++ parts.hostinfo) with
    | true =>
      rw [if_pos hinvalid] at h
      cases h
    | false =>
      rw [hinvalid, if_neg Bool.false_ne_true] at h
      by_cases hempty : UrlSplitter.hostinfo (parts.user ++ parts.hostinfo) = []
      · rw [if_pos hempty] at h
        cases h
      · rw [if_neg hempty] at h
        obtain rfl := Option.some.inj (Option.some.inj h)
        refine ⟨_, ⟨parts, hinvalid, ?_, hempty⟩, rfl⟩
        have hin := hostinfo_iff.mp (Eq.refl (UrlSplitter.hostinfo (parts.user ++ parts.hostinfo)))
        rwa [parts.hostinfo_eq] at hin
  · rintro ⟨host, ⟨parts, hinvalid, hin, hne⟩, rfl⟩
    rw [← parts.hostinfo_eq] at hin
    rw [parts.splitnetloc_eq, hinvalid, if_neg Bool.false_ne_true, hostinfo_iff.mpr hin, if_neg hne]

/-- A header is allowed if the host in it is of this machine. -/
theorem host_allowed_iff {u : UrlSplitter} {names : List (List Char)} (hstar : ['*'] ∉ names)
    (header : List Char) : host_allowed u (some header) names = true ↔
      ∃ host, HostOf u host header ∧ OwnHost names (u.lower host) := by
  have hhostname : host_allowed u (some header) names = true ↔
      ∃ hostname, u.hostname header = some (some hostname) ∧ OwnHost names hostname := by
    unfold host_allowed OwnHost
    rw [if_neg hstar]
    dsimp only
    by_cases hempty : header = []
    · rw [if_pos hempty, hempty]
      have hnone : u.hostname [] = none ∨ u.hostname [] = some none := by
        unfold UrlSplitter.hostname
        dsimp only
        split
        · exact .inl rfl
        · exact .inr (if_pos rfl)
      refine iff_of_false Bool.false_ne_true ?_
      rintro ⟨hostname, h, -⟩
      rcases hnone with hnone | hnone
      · cases hnone.symm.trans h
      · cases hnone.symm.trans h
    · rw [if_neg hempty]
      rcases u.hostname header with - | - | hostname
      · exact iff_of_false Bool.false_ne_true (by rintro ⟨hostname, h, -⟩; cases h)
      · exact iff_of_false Bool.false_ne_true (by rintro ⟨hostname, h, -⟩; cases h)
      · simp only [Option.some.injEq, exists_eq_left']
        split
        next hname => exact iff_of_true rfl (hname.elim .inl fun h => .inr (.inl h))
        next hname => rw [or_assoc.symm, or_iff_right hname]
  rw [hhostname]
  constructor
  · rintro ⟨hostname, h, hown⟩
    obtain ⟨host, hof, rfl⟩ := hostname_iff.mp h
    exact ⟨host, hof, hown⟩
  · rintro ⟨host, hof, hown⟩
    exact ⟨_, hostname_iff.mpr ⟨host, hof, rfl⟩, hown⟩

/-- No host has one of these in it, and no host but an address in brackets has a colon. -/
def delimiters : List Char := ['/', '?', '#', '@', '[', ']'] ++ UNSAFE_URL_BYTES

def IsPort (port : List Char) : Prop :=
  port = [] ∨ ∃ digits, port = ':' :: digits ∧ ∀ ch ∈ digits, ch.isDigit = true

/-- An IPv6 literal in brackets, with dots behind it and a port. -/
def LiteralHost (u : UrlSplitter) (header : List Char) : Prop :=
  ∃ literal dots port, header = '[' :: (literal ++ ']' :: (dots ++ port)) ∧
    (∀ ch ∈ literal, ch ∉ delimiters) ∧ is_ipv6 (u.lower literal) = true ∧
    (∀ ch ∈ dots, ch = '.') ∧ IsPort port

/-- `localhost`, one of the names or an IPv4 literal. -/
def NameHost (u : UrlSplitter) (names : List (List Char)) (host : List Char) : Prop :=
  (∀ ch ∈ host, ch ∉ ':' :: delimiters) ∧ (rstrip (u.lower host) = localhost ∨
    rstrip (u.lower host) ∈ names ∨ is_ipv4 (rstrip (u.lower host)) = true)

/-- `host` or `host:port`, with a host of this machine. -/
def HostForm (u : UrlSplitter) (names : List (List Char)) (header : List Char) : Prop :=
  (∃ host port, header = host ++ port ∧ NameHost u names host ∧ IsPort port) ∨ LiteralHost u header

/-- Nothing but a host name and a port, of whatever machine. -/
def PlainHeader (header : List Char) : Prop :=
  (∀ ch ∈ header, ch ∉ delimiters) ∧ ∀ ch ∈ (partition_at ':' header).2.2, ch.isDigit = true

instance (header : List Char) : Decidable (PlainHeader header) :=
  @instDecidableAnd _ _ (List.decidableBAll _ _) (List.decidableBAll _ _)

section Form
variable {u : UrlSplitter} {names : List (List Char)} {header host : List Char}

theorem mem_delimiters_of_netloc_ends {ch : Char} (h : ch ∈ netloc_ends) : ch ∈ delimiters :=
  List.mem_append_left _ (List.mem_append_left ['@', '[', ']'] h)

/-- In a plain header there is nothing but the host and a port. -/
theorem HostOf.plain (h : HostOf u host header) (hplain : PlainHeader header) :
    ∃ port, header = host ++ port ∧ ':' ∉ host ∧ IsPort port := by
  obtain ⟨hdelimiters, hport⟩ := hplain
  obtain ⟨parts, -, hin, -⟩ := h
  have hclean : u.cleaned header = header := by
    refine List.filter_eq_self.mpr fun ch hch => ?_
    rw [Bool.not_eq_true', Bool.eq_false_iff]
    exact fun hremoved => hdelimiters ch hch (List.mem_append_right _ (u.removed_unsafe ch hremoved))
  have hwhole := hclean.symm.trans parts.whole
  have huser : parts.user = [] := by
    refine parts.user_ends.resolve_right ?_
    rintro ⟨name, hname⟩
    refine hdelimiters '@' ?_ (by decide)
    rw [hwhole, hname]
    simp
  have hrest : parts.rest = [] := by
    refine parts.rest_starts.resolve_right ?_
    rintro ⟨ch, hch, more, hmore⟩
    refine hdelimiters ch ?_ (mem_delimiters_of_netloc_ends hch)
    rw [hwhole, hmore]
    simp
  rw [huser, hrest, List.nil_append, List.append_nil] at hwhole
  rw [← hwhole] at hin
  rcases hin with ⟨-, hcolon, port, rfl, hstart⟩ | ⟨-, before, after, -, rfl, -⟩
  · refine ⟨port, rfl, hcolon, ?_⟩
    rcases hstart with rfl | ⟨digits, rfl⟩
    · exact .inl rfl
    · rw [partition_at_cons hcolon] at hport
      exact .inr ⟨digits, rfl, hport⟩
  · exact absurd (by decide) (hdelimiters '[' (List.mem_append_right before List.mem_cons_self))

/-- A host without a colon is no IPv6 literal. -/
theorem OwnHost.no_colon (h : OwnHost names (u.lower host)) (hcolon : ':' ∉ host) :
    rstrip (u.lower host) = localhost ∨ rstrip (u.lower host) ∈ names ∨
      is_ipv4 (rstrip (u.lower host)) = true := by
  refine h.imp_right (Or.imp_right fun hip => ?_)
  refine (Bool.or_eq_true_iff.mp hip).resolve_right fun hipv6 => hcolon ?_
  exact u.lower_colon host (List.IsPrefix.mem (is_ipv6_colon hipv6) (List.rdropWhile_prefix _ _))

/-- A header of the right form is plain unless it is an IPv6 literal. -/
theorem HostForm.plain_or_literal (h : HostForm u names header) :
    PlainHeader header ∨ LiteralHost u header := by
  refine h.imp_left ?_
  rintro ⟨host, port, rfl, ⟨hhost, -⟩, hport⟩
  have hcolon : ':' ∉ host := fun hmem => hhost ':' hmem List.mem_cons_self
  have hdelimiters : ∀ ch ∈ host, ch ∉ delimiters := fun ch hch hmem =>
    hhost ch hch (List.mem_cons_of_mem _ hmem)
  rcases hport with rfl | ⟨digits, rfl, hdigits⟩
  · rw [List.append_nil]
    refine ⟨hdelimiters, ?_⟩
    rw [partition_at_none hcolon]
    exact fun _ hmem => absurd hmem List.not_mem_nil
  · refine ⟨?_, ?_⟩
    · intro ch hch hmem
      rcases List.mem_append.mp hch with hch | hch
      · exact hdelimiters ch hch hmem
      · rcases List.mem_cons.mp hch with rfl | hch
        · revert hmem
          decide
        · have hnot : delimiters.any Char.isDigit = false := by decide
          exact absurd (hdigits ch hch) (List.any_eq_false.mp hnot ch hmem)
    · rw [partition_at_cons hcolon]
      exact hdigits

/-- What is allowed has the form of a host header in just these cases: there is nothing but a
name and a port in it, or an IPv6 literal, or no host of this machine. -/
theorem host_allowed_form_iff (hstar : ['*'] ∉ names) (header : List Char) :
    (host_allowed u (some header) names = true → HostForm u names header) ↔
      PlainHeader header ∨ LiteralHost u header ∨
        ∀ host, HostOf u host header → ¬ OwnHost names (u.lower host) := by
  rw [host_allowed_iff hstar]
  constructor
  · intro h
    by_cases hown : ∃ host, HostOf u host header ∧ OwnHost names (u.lower host)
    · rcases (h hown).plain_or_literal with hplain | hliteral
      · exact .inl hplain
      · exact .inr (.inl hliteral)
    · exact .inr (.inr fun host hof hhost => hown ⟨host, hof, hhost⟩)
  · rintro h ⟨host, hof, hown⟩
    rcases h with hplain | hliteral | hnone
    · obtain ⟨port, rfl, hcolon, hport⟩ := hof.plain hplain
      refine .inl ⟨host, port, rfl, ⟨?_, hown.no_colon hcolon⟩, hport⟩
      intro ch hch hmem
      rcases List.mem_cons.mp hmem with rfl | hmem
      · exact hcolon hch
      · exact hplain.1 ch (List.mem_append_left _ hch) hmem
    · exact .inr hliteral
    · exact absurd hown (hnone host hof)

end Form

/-- A bracket without its counterpart is a `ValueError`. -/
def python : UrlSplitter where
  removed ch := decide (ch ∈ UNSAFE_URL_BYTES)
  invalid netloc := ('[' ∈ netloc) != (']' ∈ netloc)
  lower text := text.map Char.toLower
  removed_unsafe _ h := of_decide_eq_true h
  lower_colon := by
    intro text h
    obtain ⟨ch, hch, hlower⟩ := List.mem_map.mp h
    unfold Char.toLower at hlower
    split at hlower
    next hupper =>
      have hlow : 65 ≤ ch.val.toNat := UInt32.le_iff_toNat_le.mp hupper.1
      have hhigh : ch.val.toNat ≤ 90 := UInt32.le_iff_toNat_le.mp hupper.2
      have hcolon : (ch.val.toNat + 32) % 4294967296 = 58 :=
        congrArg (fun ch : Char => ch.val.toNat) hlower
      omega
    next => exact hlower ▸ hch

def own_names : List (List Char) := ["iot-robot".toList, "iot-robot.local".toList]

theorem own_name_has_form : host_allowed python (some "IOT-Robot.local.:8080".toList) own_names = true ∧
    HostForm python own_names "IOT-Robot.local.:8080".toList := by
  have hallowed : host_allowed python (some "IOT-Robot.local.:8080".toList) own_names = true := by
    decide +kernel
  exact ⟨hallowed, (host_allowed_form_iff (by decide +kernel) _).mpr (.inl (by decide +kernel)) hallowed⟩

def other_domains : List (List Char) := ["evil.example@localhost".toList,
  "localhost/evil.example".toList, "iot-robot?evil.example".toList, "127.0.0.1:evil.example".toList]

/-- Another domain, as a user, a path, a query or a port. -/
theorem other_domains_allowed : other_domains.Forall fun header =>
    host_allowed python (some header) own_names = true ∧ ¬ HostForm python own_names header := by
  have hnot : ∀ header ∈ other_domains, host_allowed python (some header) own_names = true ∧
      ¬ PlainHeader header ∧ header.head? ≠ some '[' := by decide +kernel
  rw [List.forall_iff_forall_mem]
  intro header hheader
  obtain ⟨hallowed, hplain, hbracket⟩ := hnot header hheader
  refine ⟨hallowed, fun h => ?_⟩
  rcases h.plain_or_literal with hform | ⟨literal, dots, port, rfl, -⟩
  · exact hplain hform
  · exact hbracket rfl

end IotRobot.Web
