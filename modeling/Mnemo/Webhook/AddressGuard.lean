import Mnemo.Core.Text
import Mnemo.Lib.IpAddress

/-!
# The guards of webhook targets

A target is checked when it is registered, by its text, and again when something is delivered, by
the addresses to which its host resolves.
-/

namespace Mnemo
namespace Webhook

open IpAddress

/-- What a parser finds in a URL. -/
structure ParsedUrl where
  scheme : String
  hostStr : Option String
  port : Option UInt16

/-- An address and a port. -/
structure SocketAddr where
  ip : IpAddr
  port : UInt16

/-- The parser of URLs and the resolver of names. -/
structure Network where
  parse : String → Except String ParsedUrl
  lookupHost : String → Except String (List SocketAddr)

/-- Whether a text ends with a given one. -/
def endsWith (text last : String) : Bool := last.toList.isSuffixOf text.toList

/-- Whether a host is written as an address inside a network. -/
def isInternalLiteral (host : String) : Bool :=
  match parseIpAddr host.toList with
  | some (.v4 v4) =>
      v4.isPrivate || v4.isLoopback || v4.isLinkLocal || v4.isBroadcast || v4.isUnspecified ||
        (v4.a == 100 && (64 ≤ v4.b && v4.b ≤ 127))
  | some (.v6 v6) =>
      v6.isLoopback || v6.isUnspecified || v6.first &&& 0xffc0 == 0xfe80 ||
        v6.first &&& 0xfe00 == 0xfc00
  | none => false

/-- Whether a host in lower case is not known to be internal. -/
def isHostSafe (host : String) : Bool :=
  if host == "localhost" || host == "127.0.0.1" || host == "::1" || host == "[::1]" ||
      host == "0.0.0.0" || Text.startsWith host "127." || endsWith host ".localhost" then false
  else if host == "169.254.169.254" || host == "metadata.google.internal" || host == "metadata" ||
      endsWith host ".internal" then false
  else if isInternalLiteral host then false
  else if Text.startsWith host "internal." || Text.startsWith host "private." ||
      Text.startsWith host "corp." || Text.startsWith host "intranet." then false
  else true

/-- Whether the text of a target is that of a public one. -/
def isUrlSafeForWebhook (net : Network) (url : String) : Bool :=
  match net.parse url with
  | .error _ => false
  | .ok parsed =>
      if parsed.scheme == "http" || parsed.scheme == "https" then
        match parsed.hostStr with
        | none => false
        | some host => isHostSafe (Text.toAsciiLowercase host)
      else false

/-- Whether an address to which a host resolves is a public one. -/
def isIpSafeForWebhook : IpAddr → Bool
  | .v4 v4 =>
      if v4.isPrivate || v4.isLoopback || v4.isLinkLocal || v4.isBroadcast || v4.isUnspecified then
        false
      else if v4.a == 100 && (64 ≤ v4.b && v4.b ≤ 127) then false
      else if v4 == ⟨169, 254, 169, 254⟩ then false
      else true
  | .v6 v6 =>
      if v6.isLoopback || v6.isUnspecified then false
      else if v6.first &&& 0xffc0 == 0xfe80 then false
      else if v6.first &&& 0xfe00 == 0xfc00 then false
      else true

/-- Resolve the host of a target and check every address. -/
def validateWebhookDns (net : Network) (url : String) : Except String Unit := do
  let parsed ← (net.parse url).mapError ("invalid URL: " ++ ·)
  let host ← (parsed.hostStr.elim (.error "URL has no host") .ok : Except String String)
  match parseIpAddr host.toList with
  | some ip =>
      if !isIpSafeForWebhook ip then throw ("IP address " ++ ip.display ++ " is not allowed")
      else pure ()
  | none =>
      let port := parsed.port.getD (if parsed.scheme == "https" then 443 else 80)
      let lookup := host ++ ":" ++ toString port.toNat
      match net.lookupHost lookup with
      | .error reason => throw ("DNS lookup failed for " ++ host ++ ": " ++ reason)
      | .ok addrs =>
          if addrs.isEmpty then throw ("DNS lookup for " ++ host ++ " returned no addresses")
          else
            match addrs.find? fun addr => !isIpSafeForWebhook addr.ip with
            | some addr =>
                throw ("DNS rebinding detected: " ++ host ++ " resolved to internal IP " ++
                  addr.ip.display)
            | none => pure ()

/-! ## The addresses inside networks -/

/-- The blocks of version 4 that are used inside networks. -/
def internalIpv4 : List (Block 32) :=
  [Ipv4Addr.block ⟨10, 0, 0, 0⟩ 8, Ipv4Addr.block ⟨172, 16, 0, 0⟩ 12,
    Ipv4Addr.block ⟨192, 168, 0, 0⟩ 16, Ipv4Addr.block ⟨127, 0, 0, 0⟩ 8,
    Ipv4Addr.block ⟨169, 254, 0, 0⟩ 16, Ipv4Addr.block ⟨255, 255, 255, 255⟩ 32,
    Ipv4Addr.block ⟨0, 0, 0, 0⟩ 32, Ipv4Addr.block ⟨100, 64, 0, 0⟩ 10]

/-- The blocks of version 6 that are used inside networks. -/
def internalIpv6 : List (Block 128) :=
  [Ipv6Addr.loopback.block 128, Ipv6Addr.unspecified.block 128,
    (Ipv6Addr.ofFirst 0xfe80).block 10, (Ipv6Addr.ofFirst 0xfc00).block 7]

/-- An address that is used inside networks. -/
def Internal : IpAddr → Prop
  | .v4 address => ∃ block ∈ internalIpv4, block.Holds address.value
  | .v6 address => ∃ block ∈ internalIpv6, block.Holds address.value

/-- The address that is reached through one. -/
def reached : IpAddr → IpAddr
  | .v4 address => .v4 address
  | .v6 address => (address.toIpv4Mapped.map IpAddr.v4).getD (.v6 address)

theorem carrierGrade_iff (address : Ipv4Addr) :
    (address.a == 100 && (64 ≤ address.b && address.b ≤ 127)) = true ↔
      (Ipv4Addr.block ⟨100, 64, 0, 0⟩ 10).Holds address.value := by
  have := address.b.toNat_lt
  have := address.c.toNat_lt
  have := address.d.toNat_lt
  simp only [Block.Holds, Ipv4Addr.block, Ipv4Addr.value, Bool.and_eq_true, beq_iff_eq,
    decide_eq_true_eq, ← UInt8.toNat_inj, UInt8.le_iff_toNat_le, UInt8.reduceToNat]
  omega

theorem isIpSafe_ipv4 (address : Ipv4Addr) :
    isIpSafeForWebhook (.v4 address) = true ↔ ¬Internal (.v4 address) := by
  have metadata : address = ⟨169, 254, 169, 254⟩ → address.isLinkLocal = true := by
    rintro rfl
    rfl
  simp only [Internal, internalIpv4, List.mem_cons, List.not_mem_nil, or_false,
    exists_eq_or_imp, exists_eq_left, ← carrierGrade_iff, ← Ipv4Addr.isLoopback_iff,
    ← Ipv4Addr.isLinkLocal_iff, ← Ipv4Addr.eq_iff_holds]
  have privates := Ipv4Addr.isPrivate_iff address
  simp only [isIpSafeForWebhook, Ipv4Addr.isBroadcast, Ipv4Addr.isUnspecified]
  grind

theorem isIpSafe_ipv6 (address : Ipv6Addr) :
    isIpSafeForWebhook (.v6 address) = true ↔ ¬Internal (.v6 address) := by
  have linkLocal := @Ipv6Addr.holds_ofFirst_iff 10 0xfe80 0xffc0 (by decide) (by decide)
    (by decide) address
  have uniqueLocal := @Ipv6Addr.holds_ofFirst_iff 7 0xfc00 0xfe00 (by decide) (by decide)
    (by decide) address
  simp only [Internal, internalIpv6, List.mem_cons, List.not_mem_nil, or_false,
    exists_eq_or_imp, exists_eq_left, ← linkLocal, ← uniqueLocal, ← Ipv6Addr.eq_iff_holds]
  simp only [isIpSafeForWebhook, Ipv6Addr.isLoopback, Ipv6Addr.isUnspecified]
  grind

/-! ## The texts of literal hosts -/

/-- The host of a URL that names an address. -/
def hostText : IpAddr → String
  | .v4 address => String.ofList address.text
  | .v6 address => String.ofList ('[' :: (address.text ++ [']']))

/-- A text that begins and ends with no letter. -/
structure Unlettered (text : List Char) : Prop where
  filled : text ≠ []
  head : ∀ character ∈ text.head?, character.isAlpha = false
  last : ∀ character ∈ text.getLast?, character.isAlpha = false

theorem Unlettered.startsWith {text : List Char} (shape : Unlettered text) (start : String)
    (letter : ∃ character ∈ start.toList.head?, character.isAlpha = true) :
    Text.startsWith (String.ofList text) start = false := by
  rw [Text.startsWith, String.toList_ofList, ← Bool.not_eq_true, List.isPrefixOf_iff_prefix]
  rintro ⟨rest, joined⟩
  obtain ⟨character, first, isLetter⟩ := letter
  have same : text.head? = some character := by
    rw [← joined, List.head?_append, first, Option.some_or]
  exact Bool.false_ne_true ((shape.head character same).symm.trans isLetter)

theorem Unlettered.endsWith {text : List Char} (shape : Unlettered text) (last : String)
    (letter : ∃ character ∈ last.toList.getLast?, character.isAlpha = true) :
    Webhook.endsWith (String.ofList text) last = false := by
  rw [Webhook.endsWith, String.toList_ofList, ← Bool.not_eq_true, List.isSuffixOf_iff_suffix]
  rintro ⟨front, joined⟩
  obtain ⟨character, final, isLetter⟩ := letter
  have same : text.getLast? = some character := by
    rw [← joined, List.getLast?_append, final, Option.some_or]
  exact Bool.false_ne_true ((shape.last character same).symm.trans isLetter)

theorem Unlettered.ne {text : List Char} (shape : Unlettered text) (name : String)
    (letter : ∃ character ∈ name.toList.head?, character.isAlpha = true) :
    (String.ofList text == name) = false := by
  rw [← Bool.not_eq_true, beq_iff_eq]
  rintro rfl
  obtain ⟨character, first, isLetter⟩ := letter
  rw [String.toList_ofList] at first
  exact Bool.false_ne_true ((shape.head character first).symm.trans isLetter)

theorem Unlettered.isHostSafe_iff {text : List Char} (shape : Unlettered text) :
    isHostSafe (String.ofList text) = true ↔
      String.ofList text ∉ ["127.0.0.1", "::1", "[::1]", "0.0.0.0", "169.254.169.254"] ∧
        Text.startsWith (String.ofList text) "127." = false ∧
          isInternalLiteral (String.ofList text) = false := by
  have i : 'i'.isAlpha = true := by decide
  have l : 'l'.isAlpha = true := by decide
  have m : 'm'.isAlpha = true := by decide
  simp only [isHostSafe, shape.ne "localhost" ⟨'l', rfl, l⟩, shape.ne "metadata" ⟨'m', rfl, m⟩,
    shape.ne "metadata.google.internal" ⟨'m', rfl, m⟩,
    shape.endsWith ".localhost" ⟨'t', rfl, by decide⟩, shape.endsWith ".internal" ⟨'l', rfl, l⟩,
    shape.startsWith "internal." ⟨'i', rfl, i⟩, shape.startsWith "private." ⟨'p', rfl, by decide⟩,
    shape.startsWith "corp." ⟨'c', rfl, by decide⟩, shape.startsWith "intranet." ⟨'i', rfl, i⟩]
  simp only [List.mem_cons, List.not_mem_nil, or_false]
  grind

theorem isPlain_toLower {separator : Char} (same : separator.toLower = separator) {base : ℕ}
    (small : base ≤ 16) {character : Char} (plain : IsPlain separator base character) :
    character.toLower = character := by
  have digits : ∀ digit < 16, (Nat.digitChar digit).toLower = Nat.digitChar digit := by decide
  obtain rfl | ⟨digit, less, rfl⟩ := plain
  · exact same
  · exact digits digit (less.trans_le small)

theorem toAsciiLowercase_hostText (address : IpAddr) :
    Text.toAsciiLowercase (hostText address) = hostText address := by
  have lower {text : List Char} (plain : ∀ character ∈ text, character.toLower = character) :
      Text.toAsciiLowercase (String.ofList text) = String.ofList text := by
    rw [Text.toAsciiLowercase, String.toList_ofList, List.map_congr_left plain, List.map_id']
  cases address with
  | v4 address =>
    exact lower fun character member =>
      isPlain_toLower (by decide) (by decide) (address.isPlain_of_mem_text character member)
  | v6 address =>
    refine lower fun character member => ?_
    rcases List.mem_cons.mp member with rfl | inside
    · decide
    · rcases List.mem_append.mp inside with within | last
      · exact isPlain_toLower (by decide) (by decide)
          (address.isPlain_of_mem_text character within)
      · rw [List.mem_singleton.mp last]
        decide

theorem unlettered_ipv4 (address : Ipv4Addr) : Unlettered address.text := by
  have digit {number : ℕ} {character : Char} (member : character ∈ Nat.toDigits 10 number) :
      character.isAlpha = false := by
    have digits : ∀ digit < 10, (Nat.digitChar digit).isAlpha = false := by decide
    obtain ⟨digit, small, rfl⟩ := exists_digit_of_mem_toDigits (by decide) member
    exact digits digit small
  refine ⟨?_, ?_, ?_⟩
  · simp [Ipv4Addr.text]
  · intro character head
    rw [Ipv4Addr.text, List.head?_append_of_ne_nil _ Nat.toDigits_ne_nil] at head
    exact digit (List.mem_of_mem_head? head)
  · intro character last
    have split : address.text = (Nat.toDigits 10 address.a.toNat ++ '.' ::
        (Nat.toDigits 10 address.b.toNat ++ '.' :: (Nat.toDigits 10 address.c.toNat ++ ['.']))) ++
          Nat.toDigits 10 address.d.toNat := by
      simp [Ipv4Addr.text]
    rw [split, List.getLast?_append_of_ne_nil _ Nat.toDigits_ne_nil] at last
    exact digit (List.mem_of_getLast? last)

theorem unlettered_ipv6 (address : Ipv6Addr) : Unlettered ('[' :: (address.text ++ [']'])) := by
  refine ⟨List.cons_ne_nil _ _, ?_, ?_⟩
  · intro character head
    obtain rfl := Option.some.inj head
    decide
  · intro character last
    rw [← List.cons_append, List.getLast?_concat] at last
    obtain rfl := Option.some.inj last
    decide

theorem startsWith_127_iff (address : Ipv4Addr) :
    Text.startsWith (String.ofList address.text) "127." = true ↔ address.isLoopback = true := by
  have opened : (String.ofList address.text).toList = address.text := String.toList_ofList
  rw [Text.startsWith, opened, List.isPrefixOf_iff_prefix, Ipv4Addr.isLoopback, beq_iff_eq]
  constructor
  · rintro ⟨rest, joined⟩
    have parts : ['1', '2', '7'] ++ '.' :: rest = address.text := joined
    have digits := ((Text.append_separator_inj (by decide) (dot_notMem_toDigits _)).mp parts).1
    have number := congrArg (fun digits => Nat.ofDigitChars 10 digits 0) digits
    rw [Nat.ofDigitChars_ten_toDigits] at number
    exact UInt8.toNat_inj.mp number.symm
  · intro first
    rw [Ipv4Addr.text, first]
    exact ⟨_, rfl⟩

theorem text_injective {first second : Ipv4Addr} (same : first.text = second.text) :
    first = second := by
  have read := (parseIpAddr_ipv4 first).symm.trans ((congrArg parseIpAddr same).trans
    (parseIpAddr_ipv4 second))
  exact IpAddr.v4.inj (Option.some.inj read)

theorem colon_notMem_text (address : Ipv4Addr) : ':' ∉ address.text := by
  intro member
  obtain dot | ⟨digit, small, same⟩ := address.isPlain_of_mem_text ':' member
  · exact absurd dot (by decide)
  · exact colon_ne_digitChar digit (by omega) same.symm

theorem isHostSafe_ipv4 (address : Ipv4Addr) :
    isHostSafe (hostText (.v4 address)) = isIpSafeForWebhook (.v4 address) := by
  have spelled (other : Ipv4Addr) : String.ofList address.text = String.ofList other.text ↔
      address = other := by
    rw [String.ofList_inj]
    exact ⟨text_injective, congrArg Ipv4Addr.text⟩
  have colon (other : List Char) (member : ':' ∈ other) :
      String.ofList address.text ≠ String.ofList other := by
    rintro same
    exact colon_notMem_text address (String.ofList_inj.mp same ▸ member)
  have host := spelled ⟨127, 0, 0, 1⟩
  have none := spelled ⟨0, 0, 0, 0⟩
  have metadata := spelled ⟨169, 254, 169, 254⟩
  have own := colon [':', ':', '1'] (by decide)
  have bracketed := colon ['[', ':', ':', '1', ']'] (by decide)
  have loopback := startsWith_127_iff address
  rw [Bool.eq_iff_iff, hostText, (unlettered_ipv4 address).isHostSafe_iff]
  simp only [isInternalLiteral, String.toList_ofList, parseIpAddr_ipv4, List.mem_cons,
    List.not_mem_nil, or_false, isIpSafeForWebhook]
  change ¬(String.ofList address.text = String.ofList (Ipv4Addr.text ⟨127, 0, 0, 1⟩) ∨
    String.ofList address.text = String.ofList [':', ':', '1'] ∨
    String.ofList address.text = String.ofList ['[', ':', ':', '1', ']'] ∨
    String.ofList address.text = String.ofList (Ipv4Addr.text ⟨0, 0, 0, 0⟩) ∨
    String.ofList address.text = String.ofList (Ipv4Addr.text ⟨169, 254, 169, 254⟩)) ∧ _ ↔ _
  have inLoopback : address = ⟨127, 0, 0, 1⟩ → address.isLoopback = true := by
    rintro rfl
    rfl
  have inLinkLocal : address = ⟨169, 254, 169, 254⟩ → address.isLinkLocal = true := by
    rintro rfl
    rfl
  rw [host, none, metadata]
  simp only [own, bracketed, false_or, Ipv4Addr.isUnspecified]
  grind

theorem isHostSafe_ipv6 (address : Ipv6Addr) :
    isHostSafe (hostText (.v6 address)) = true ↔ address ≠ Ipv6Addr.loopback := by
  have opened : (String.ofList ('[' :: (address.text ++ [']']))).toList =
      '[' :: (address.text ++ [']']) := String.toList_ofList
  have literal : isInternalLiteral (String.ofList ('[' :: (address.text ++ [']']))) = false := by
    rw [isInternalLiteral, opened, parseIpAddr_bracket]
  have start : Text.startsWith (String.ofList ('[' :: (address.text ++ [']']))) "127." = false := by
    rw [Text.startsWith, opened]
    rfl
  have spelled : String.ofList ('[' :: (address.text ++ [']'])) = "[::1]" ↔
      address = Ipv6Addr.loopback := by
    rw [← address.text_eq_loopback_iff]
    constructor
    · intro same
      have inside : address.text ++ [']'] = [':', ':', '1'] ++ [']'] :=
        (List.cons.inj (opened.symm.trans (congrArg String.toList same))).2
      exact List.append_cancel_right inside
    · intro same
      rw [same]
      rfl
  have other {name : String} (different : name.toList.head? ≠ some '[') :
      String.ofList ('[' :: (address.text ++ [']'])) ≠ name := by
    rintro rfl
    rw [opened] at different
    exact different rfl
  rw [hostText, (unlettered_ipv6 address).isHostSafe_iff]
  simp only [literal, start, List.mem_cons, List.not_mem_nil, or_false, and_true, spelled,
    @other "127.0.0.1" (by decide), @other "::1" (by decide), @other "0.0.0.0" (by decide),
    @other "169.254.169.254" (by decide), false_or]

/-! ## The two guards -/

section Literal

variable {net : Network} {url : String} {parsed : ParsedUrl} {address : IpAddr}

theorem isUrlSafe_literal (accepted : net.parse url = .ok parsed)
    (web : parsed.scheme = "http" ∨ parsed.scheme = "https")
    (literal : parsed.hostStr = some (hostText address)) :
    isUrlSafeForWebhook net url = isHostSafe (hostText address) := by
  have scheme : (parsed.scheme == "http" || parsed.scheme == "https") = true := by
    simpa using web
  simp only [isUrlSafeForWebhook, accepted, scheme, literal, toAsciiLowercase_hostText, if_true]

/-- The port at which a target is reached. -/
def ParsedUrl.portOrDefault (parsed : ParsedUrl) : UInt16 :=
  parsed.port.getD (if parsed.scheme == "https" then 443 else 80)

/-- The resolver answers a literal host with the address itself. -/
def Network.ResolvesLiteral (net : Network) (address : IpAddr) (port : UInt16) : Prop :=
  net.lookupHost (hostText address ++ ":" ++ toString port.toNat) = .ok [⟨address, port⟩]

theorem validateWebhookDns_literal (accepted : net.parse url = .ok parsed)
    (literal : parsed.hostStr = some (hostText address))
    (resolves : net.ResolvesLiteral address parsed.portOrDefault) :
    validateWebhookDns net url = .ok () ↔ isIpSafeForWebhook address = true := by
  cases address with
  | v4 address =>
    have read : parseIpAddr (hostText (.v4 address)).toList = some (.v4 address) := by
      rw [hostText, String.toList_ofList, parseIpAddr_ipv4]
    simp only [validateWebhookDns, accepted, Except.mapError, bind, Except.bind, literal,
      Option.elim_some, read]
    cases isIpSafeForWebhook (.v4 address)
    · exact iff_of_false nofun Bool.false_ne_true
    · exact iff_of_true rfl rfl
  | v6 address =>
    have read : parseIpAddr (hostText (.v6 address)).toList = none := by
      rw [hostText, String.toList_ofList, parseIpAddr_bracket]
    simp only [validateWebhookDns, accepted, Except.mapError, bind, Except.bind, literal,
      Option.elim_some, read]
    rw [show net.lookupHost (hostText (.v6 address) ++ ":" ++ toString
      (parsed.port.getD (if parsed.scheme == "https" then 443 else 80)).toNat) = _ from resolves]
    cases safe : isIpSafeForWebhook (.v6 address)
    · simp [safe, throw, throwThe, MonadExceptOf.throw]
    · simp [safe, pure, Except.pure]

end Literal

/-- What the guards promise of a URL whose host is an address. -/
structure GuardsAgree (net : Network) (url : String) (address : IpAddr) : Prop where
  same : isUrlSafeForWebhook net url = true ↔ validateWebhookDns net url = .ok ()
  refused : isIpSafeForWebhook address = false →
    isUrlSafeForWebhook net url = false ∧ validateWebhookDns net url ≠ .ok ()
  mapped : ∀ outer inner, address = .v6 outer → outer.toIpv4Mapped = some inner →
    isUrlSafeForWebhook net url = true ∨ validateWebhookDns net url = .ok () →
      isHostSafe (hostText (.v4 inner)) = true ∧ isIpSafeForWebhook (.v4 inner) = true
  outside : isUrlSafeForWebhook net url = true ∨ validateWebhookDns net url = .ok () →
    ¬Internal (reached address)

/-- An address of version 4, the host itself in version 6, or an address of version 6 that is not
internal and does not stand for an internal one. -/
def Screened : IpAddr → Prop
  | .v4 _ => True
  | .v6 address => address = Ipv6Addr.loopback ∨
      ¬Internal (.v6 address) ∧
        ∀ inner, address.toIpv4Mapped = some inner → ¬Internal (.v4 inner)

/-- The guards keep their promise exactly for the addresses that are screened. -/
theorem guardsAgree_iff {net : Network} {url : String} {parsed : ParsedUrl} {address : IpAddr}
    (accepted : net.parse url = .ok parsed)
    (web : parsed.scheme = "http" ∨ parsed.scheme = "https")
    (literal : parsed.hostStr = some (hostText address))
    (resolves : net.ResolvesLiteral address parsed.portOrDefault) :
    GuardsAgree net url address ↔ Screened address := by
  have byText := isUrlSafe_literal accepted web literal
  have byName := validateWebhookDns_literal accepted literal resolves
  cases address with
  | v4 address =>
      have agree : isUrlSafeForWebhook net url = isIpSafeForWebhook (.v4 address) :=
        byText.trans (isHostSafe_ipv4 address)
      refine iff_of_true ⟨by rw [agree, byName], ?_, nofun, ?_⟩ trivial
      · intro internal
        rw [agree, Ne, byName, internal]
        exact ⟨rfl, Bool.false_ne_true⟩
      · rw [agree, byName, or_self]
        exact (isIpSafe_ipv4 address).mp
  | v6 address =>
      have textual : isUrlSafeForWebhook net url = true ↔ address ≠ Ipv6Addr.loopback := by
        rw [byText, isHostSafe_ipv6]
      rw [isIpSafe_ipv6] at byName
      have loopback : Internal (.v6 Ipv6Addr.loopback) := by
        exact ⟨_, List.mem_cons_self, rfl⟩
      constructor
      · intro agree
        by_cases own : address = Ipv6Addr.loopback
        · exact .inl own
        · have accepts := textual.mpr own
          refine .inr ⟨byName.mp (agree.same.mp accepts), fun inner stands => ?_⟩
          exact (isIpSafe_ipv4 inner).mp (agree.mapped address inner rfl stands (.inl accepts)).2
      · rintro (rfl | ⟨outside, stands⟩)
        · have text : ¬isUrlSafeForWebhook net url = true := fun safe => textual.mp safe rfl
          have name : ¬validateWebhookDns net url = .ok () := fun valid => byName.mp valid loopback
          refine ⟨iff_of_false text name, fun _ => ⟨Bool.not_eq_true _ ▸ text, name⟩, ?_, ?_⟩
          · rintro _ _ _ _ (safe | valid)
            · exact (text safe).elim
            · exact (name valid).elim
          · rintro (safe | valid)
            · exact (text safe).elim
            · exact (name valid).elim
        · have own : address ≠ Ipv6Addr.loopback := by
            rintro rfl
            exact outside loopback
          refine ⟨iff_of_true (textual.mpr own) (byName.mpr outside), ?_, ?_, ?_⟩
          · intro internal
            exact absurd ((isIpSafe_ipv6 address).mpr outside) (by simp [internal])
          · rintro _ inner same is _
            obtain rfl := IpAddr.v6.inj same
            have safe := (isIpSafe_ipv4 inner).mpr (stands inner is)
            exact ⟨(isHostSafe_ipv4 inner).trans safe, safe⟩
          · intro _
            rw [reached]
            cases is : address.toIpv4Mapped with
            | none => exact outside
            | some inner => exact stands inner is

/-- A network in which one target is known, with an address as its host. -/
def literalNetwork (url : String) (address : IpAddr) : Network where
  parse text := if text = url then .ok ⟨"http", some (hostText address), none⟩ else .error "unknown"
  lookupHost text :=
    if text = hostText address ++ ":80" then .ok [⟨address, 80⟩] else .error "unknown"

theorem literalNetwork_parse (url : String) (address : IpAddr) :
    (literalNetwork url address).parse url = .ok ⟨"http", some (hostText address), none⟩ :=
  if_pos rfl

theorem literalNetwork_resolves (url : String) (address : IpAddr) :
    (literalNetwork url address).ResolvesLiteral address 80 := by
  have port : ":" ++ toString (80 : UInt16).toNat = ":80" := by decide +kernel
  rw [Network.ResolvesLiteral, String.append_assoc, port]
  exact if_pos rfl

/-- A link-local address is accepted by its text and refused by name, and one that stands for the
host itself is accepted by both. -/
theorem ipv6_targets_accepted :
    let linkLocal := IpAddr.v6 ⟨[0xfe80, 0, 0, 0, 0, 0, 0, 1], rfl⟩
    let host := IpAddr.v6 ⟨[0, 0, 0, 0, 0, 0xffff, 0x7f00, 1], rfl⟩
    ¬GuardsAgree (literalNetwork "http://[fe80::1]/" linkLocal) "http://[fe80::1]/" linkLocal ∧
      ¬GuardsAgree (literalNetwork "http://[::ffff:7f00:1]/" host) "http://[::ffff:7f00:1]/"
        host := by
  intro linkLocal host
  have text : isUrlSafeForWebhook (literalNetwork "http://[fe80::1]/" linkLocal)
      "http://[fe80::1]/" = true := by
    decide +kernel
  have name : validateWebhookDns (literalNetwork "http://[fe80::1]/" linkLocal)
      "http://[fe80::1]/" ≠ .ok () := by
    decide +kernel
  have mapped : isUrlSafeForWebhook (literalNetwork "http://[::ffff:7f00:1]/" host)
      "http://[::ffff:7f00:1]/" = true := by
    decide +kernel
  refine ⟨fun agree => name (agree.same.mp text), fun agree => agree.outside (.inl mapped) ?_⟩
  exact ⟨Ipv4Addr.block ⟨127, 0, 0, 0⟩ 8, by simp [internalIpv4], by decide⟩

/-- A public address of version 6 is accepted by both guards. -/
theorem guardsAgree_public :
    let address := IpAddr.v6 ⟨[0x2001, 0xdb8, 0, 0, 0, 0, 0, 1], rfl⟩
    GuardsAgree (literalNetwork "http://[2001:db8::1]/" address) "http://[2001:db8::1]/" address ↔
      Screened address := by
  intro address
  exact guardsAgree_iff (literalNetwork_parse _ address) (.inl rfl) rfl
    (literalNetwork_resolves _ address)

end Webhook
end Mnemo
