import Mathlib.Data.List.Basic
import Zenstier.Concurrent.Fates
import Zenstier.Runtime

/-!
# Requests to URLs that users supply

`safe-fetch.ts`.  `assertPublicUrl` resolves the host of a URL and judges every address, and
`fetch` resolves the host once more.  The resolver may answer the two differently, so `NetOp` has
the query as a request, along with each judgement and each attempt to connect.

Parsing a URL is an argument, as are the answers of the resolver and the choice that the HTTP
client makes among the addresses it is given.
-/

namespace Zenstier

open Concurrent

namespace Net

/-! ## Addresses -/

/-- `Number(part)` of decimal digits. -/
def decimal (part : List Char) : Option Nat :=
  if part ≠ [] ∧ part.all Char.isDigit then
    some (part.foldl (fun n c ↦ n * 10 + (c.toNat - '0'.toNat)) 0)
  else none

/-- A decimal number up to 255, without leading zeros. -/
def isOctet (part : List Char) : Bool :=
  (decimal part).any (· ≤ 255) && (part.length = 1 || part.head? ≠ some '0')

def isIPv4 (s : List Char) : Bool :=
  (s.splitOn '.').length = 4 && (s.splitOn '.').all isOctet

def isHexDigit (c : Char) : Bool := c.isDigit || ('a' ≤ c && c ≤ 'f') || ('A' ≤ c && c ≤ 'F')

/-- One to four hexadecimal digits. -/
def isHextet (group : List Char) : Bool :=
  1 ≤ group.length && group.length ≤ 4 && group.all isHexDigit

/-- The number of 16-bit pieces of some groups.  The last may be an IPv4 address. -/
def pieces (tail : Bool) (s : List Char) : Option Nat :=
  if s = [] then some 0
  else match (s.splitOn ':').reverse with
    | [] => none
    | last :: init =>
        if init.all isHextet then
          if isHextet last then some (init.length + 1)
          else if tail && isIPv4 last then some (init.length + 2)
          else none
        else none

/-- What stands on either side of `::`. -/
def cutElision : List Char → Option (List Char × List Char)
  | [] => none
  | ':' :: ':' :: rest => some ([], rest)
  | c :: rest => (cutElision rest).map fun (left, right) ↦ (c :: left, right)

/-- A scope such as `%eth0`, if there is one. -/
def isZone : List Char → Bool
  | [] => true
  | _ :: zone => zone ≠ [] && zone.all fun c ↦ c.isAlphanum || c = '-' || c = '.' || c = ':'

def isIPv6 (s : List Char) : Bool :=
  let address := s.takeWhile (· ≠ '%')
  isZone (s.dropWhile (· ≠ '%')) && match cutElision address with
    | none => pieces true address = some 8
    | some (left, right) =>
        ((pieces false left).bind fun a ↦ (pieces true right).map (a + ·)).any (· ≤ 7)

/-- `isIP` of `node:net`: the family of an address, and 0 for any other string. -/
def isIP (input : String) : Nat :=
  if isIPv4 input.toList then 4 else if isIPv6 input.toList then 6 else 0

def ipv4ToInt (ip : List Char) : Option Nat :=
  let parts := ip.splitOn '.'
  if parts.length ≠ 4 then none
  else parts.foldl (fun value part ↦ value.bind fun v ↦
    ((decimal part).filter (· ≤ 255)).map (v * 256 + ·)) (some 0)

/-- CIDR blocks that must never be reachable from a user-supplied URL. -/
def BLOCKED_V4 : List (String × Nat × String) :=
  [("0.0.0.0", 8, "this host"),
   ("10.0.0.0", 8, "private network"),
   ("100.64.0.0", 10, "carrier-grade NAT"),
   ("127.0.0.0", 8, "loopback"),
   ("169.254.0.0", 16, "link-local / cloud metadata"),
   ("172.16.0.0", 12, "private network"),
   ("192.0.0.0", 24, "IETF protocol assignments"),
   ("192.168.0.0", 16, "private network"),
   ("198.18.0.0", 15, "benchmarking"),
   ("224.0.0.0", 4, "multicast"),
   ("240.0.0.0", 4, "reserved")]

/-- The upper `bits` of 32 bits. -/
def mask (bits : Nat) : Nat := if bits = 0 then 0 else 2 ^ 32 - 2 ^ (32 - bits)

def describeBlockedV4 (ip : List Char) : Option String :=
  match ipv4ToInt ip with
  | none => some "malformed address"
  | some value =>
      (BLOCKED_V4.find? fun (base, bits, _) ↦
        value &&& mask bits = (ipv4ToInt base.toList).getD 0 &&& mask bits).map (·.2.2)

/-- The address in `/^::ffff:(\d+\.\d+\.\d+\.\d+)$/`. -/
def mappedDotted (address : List Char) : Option (List Char) :=
  (address.dropPrefix? "::ffff:".toList).filter fun rest ↦
    (rest.splitOn '.').length = 4 && (rest.splitOn '.').all fun part ↦ (decimal part).isSome

/-- `parseInt(hex, 16)`. -/
def parseHex (hex : List Char) : Nat :=
  hex.foldl (fun n c ↦ n * 16 + (if c.isDigit then c.toNat - '0'.toNat
    else c.toLower.toNat - 'a'.toNat + 10)) 0

/-- The groups in `/^::ffff:([0-9a-f]{1,4}):([0-9a-f]{1,4})$/`, as a dotted address. -/
def mappedHex (address : List Char) : Option (List Char) :=
  (address.dropPrefix? "::ffff:".toList).bind fun rest ↦ match rest.splitOn ':' with
    | [high, low] =>
        if isHextet high && isHextet low then
          let bytes := [parseHex high / 256, parseHex high % 256, parseHex low / 256,
            parseHex low % 256]
          some (['.'].intercalate (bytes.map fun byte ↦ (toString byte).toList))
        else none
    | _ => none

def describeBlockedV6 (ip : String) : Option String :=
  let address := (toLowerCase ip).toList.takeWhile (· ≠ '%')
  if address = "::".toList ∨ address = "::1".toList then some "loopback"
  else match mappedDotted address, mappedHex address with
    -- mapped addresses are judged by their IPv4 value
    | some dotted, _ => describeBlockedV4 dotted
    | none, some ipv4 => describeBlockedV4 ipv4
    | none, none => match address with
        | 'f' :: c :: x :: y :: ':' :: _ =>
            if (c = 'c' ∨ c = 'd') ∧ isHexDigit x ∧ isHexDigit y then some "unique-local"
            else if c = 'e' ∧ x ∈ ['8', '9', 'a', 'b'] ∧ isHexDigit y then some "link-local"
            else if c = 'f' then some "multicast"
            else none
        | 'f' :: 'f' :: _ => some "multicast"
        | _ => none

/-- Why an address is not allowed, if it is not. -/
def describeBlockedAddress (ip : String) : Option String :=
  match isIP ip with
  | 4 => describeBlockedV4 ip.toList
  | 6 => describeBlockedV6 ip
  | _ => some "malformed address"

/-! ## Requests -/

/-- What is read of a `URL`. -/
structure Url where
  protocol : String
  username : String := ""
  password : String := ""
  hostname : String
deriving DecidableEq, Repr

inductive NetError
  /-- `BlockedUrlError`. -/
  | blockedUrl (message : String)
  /-- A name that does not resolve. -/
  | notFound (host : String)
deriving DecidableEq, Repr

inductive NetOp : Type → Type
  /-- `lookup(host, { all: true })`. -/
  | lookup (host : String) : NetOp (List String)
  | describeBlockedAddress (ip : String) : NetOp (Option String)
  | connect (address : String) : NetOp Unit

abbrev NetM := Prog NetOp NetError

/-- The HTTP client: which of the addresses it is given it tries to connect to. -/
structure HttpClient where
  attempts : List String → List String
  attempts_subset : ∀ addresses, attempts addresses ⊆ addresses

/-- `hostname.replace(/^\[|\]$/g, "")`. -/
def bareHost (hostname : String) : String :=
  let chars := if hostname.toList.head? = some '[' then hostname.toList.tail else hostname.toList
  String.ofList (if chars.getLast? = some ']' then chars.dropLast else chars)

/-- Every resolved address must be acceptable. -/
def assertAddresses (host : String) : List String → NetM Unit
  | [] => return ()
  | address :: addresses => do
      match ← .perform (.describeBlockedAddress address) with
      | some reason =>
          throw (.blockedUrl (host ++ " resolves to an internal address (" ++ reason ++ ")"))
      | none => assertAddresses host addresses

variable (parse : String → Option Url) (client : HttpClient)

/-- Validates a URL and resolves it, rejecting anything internal. -/
def assertPublicUrl (allowPrivateWebhooks : Bool) (raw : String) : NetM Url :=
  match parse raw with
  | none => throw (.blockedUrl "That is not a valid URL")
  | some url =>
      if url.protocol ≠ "http:" ∧ url.protocol ≠ "https:" then
        throw (.blockedUrl "Only http:// and https:// URLs are allowed")
      else if url.username ≠ "" ∨ url.password ≠ "" then
        throw (.blockedUrl "Credentials in the URL are not allowed")
      else if allowPrivateWebhooks then return url
      else do
        let host := bareHost url.hostname
        if isIP host ≠ 0 then
          match ← .perform (.describeBlockedAddress host) with
          | some reason => throw (.blockedUrl ("That address is not allowed (" ++ reason ++ ")"))
          | none => return url
        else do
          let addresses ← tryCatch (.perform (.lookup host)) fun _ ↦
            throw (.blockedUrl ("Could not resolve " ++ host))
          if addresses = [] then throw (.blockedUrl ("Could not resolve " ++ host))
          else do
            assertAddresses host addresses
            return url

/-- The connections of `fetch`, which does not follow redirects.  It resolves a name by itself. -/
def fetch (url : Url) : NetM Unit := do
  let host := bareHost url.hostname
  if isIP host ≠ 0 then .perform (.connect host)
  else do
    let addresses ← .perform (.lookup host)
    (client.attempts addresses).forM fun address ↦ .perform (.connect address)

/-- `fetch` for operator-supplied URLs. -/
def safeFetch (allowPrivateWebhooks : Bool) (raw : String) : NetM Unit := do
  let url ← assertPublicUrl parse allowPrivateWebhooks raw
  fetch client url

/-! ## The resolver -/

/-- The answers to a sequence of queries. -/
abbrev Resolver := Nat → String → Option (List String)

/-- The state is the number of queries so far. -/
def netServer (resolver : Resolver) : Server NetOp NetError Nat where
  serve
    | .lookup host, n => match resolver n host with
        | some addresses => (.ok addresses, n + 1)
        | none => (.error (.notFound host), n + 1)
    | .describeBlockedAddress ip, n => (.ok (describeBlockedAddress ip), n)
    | .connect _, n => (.ok (), n)

inductive NetNote
  /-- The address is not blocked. -/
  | approved (ip : String)
  | connected (address : String)
deriving DecidableEq, Repr

/-- Takes note of the addresses that are judged, and of those that are connected to. -/
def watchNet (β : Type) : NetOp β → Nat → List NetNote
  | .lookup _, _ => []
  | .describeBlockedAddress ip, _ =>
      if describeBlockedAddress ip = none then [.approved ip] else []
  | .connect address, _ => [.connected address]

/-- The run of a program, with its notes. -/
def watched {α : Type} (resolver : Resolver) (p : NetM α) (r : Recorded Nat NetNote) :
    Except NetError α × Recorded Nat NetNote :=
  runBy ((netServer resolver).watching watchNet) (fun _ _ ↦ .served) p r

/-- Every address that is connected to has been approved. -/
def Checked (log : List NetNote) : Prop :=
  ∀ address, .connected address ∈ log → .approved address ∈ log

/-- A URL with a name for a host passes on the first answer of the resolver. -/
structure Passes (resolver : Resolver) (raw : String) (url : Url) (first : List String) : Prop where
  parsed : parse raw = some url
  protocol : url.protocol = "http:" ∨ url.protocol = "https:"
  bare : url.username = "" ∧ url.password = ""
  named : isIP (bareHost url.hostname) = 0
  answer : resolver 0 (bareHost url.hostname) = some first
  nonempty : first ≠ []
  judged : ∀ address ∈ first, describeBlockedAddress address = none

/-- If a URL passes on the first answer, the client tries no other address of the second. -/
def Steady (resolver : Resolver) (raw : String) : Prop :=
  ∀ url first second, Passes parse resolver raw url first →
    resolver 1 (bareHost url.hostname) = some second → client.attempts second ⊆ first

/-! ## Runs -/

section Runs

variable {parse client} {resolver : Resolver} {raw host : String} {n : Nat} {log : List NetNote}

theorem watched_bind {α β : Type} (p : NetM α) (f : α → NetM β) (r : Recorded Nat NetNote) :
    watched resolver (p >>= f) r = match watched resolver p r with
      | (.ok a, t) => watched resolver (f a) t
      | (.error e, t) => (.error e, t) := by
  rcases hp : watched resolver p r with ⟨res, t⟩
  rw [watched] at hp ⊢
  rw [runBy_bind, hp]
  cases res <;> rfl

theorem watched_describe {β : Type} (ip : String) (k : Option String → NetM β) :
    watched resolver (.perform (.describeBlockedAddress ip) >>= k) ⟨n, log⟩ =
      watched resolver (k (describeBlockedAddress ip)) ⟨n, log ++
        if describeBlockedAddress ip = none then [.approved ip] else []⟩ := runBy_await _ _ _

/-- All addresses are acceptable. -/
theorem watched_assertAddresses {addresses : List String}
    (h : ∀ address ∈ addresses, describeBlockedAddress address = none) :
    watched resolver (assertAddresses host addresses) ⟨n, log⟩ =
      (.ok (), ⟨n, log ++ addresses.map .approved⟩) := by
  induction addresses generalizing log with
  | nil =>
      rw [List.map_nil, List.append_nil]
      rfl
  | cons address addresses ih =>
      rw [List.forall_mem_cons] at h
      rw [assertAddresses, watched_describe, if_pos h.1, h.1]
      dsimp only
      rw [ih h.2, List.map_cons, List.append_assoc]
      rfl

/-- One address is not. -/
theorem watched_assertAddresses_blocked {addresses : List String}
    (h : ∃ address ∈ addresses, describeBlockedAddress address ≠ none) :
    ∃ e approved, watched resolver (assertAddresses host addresses) ⟨n, log⟩ =
      (.error e, ⟨n, log ++ List.map .approved approved⟩) := by
  induction addresses generalizing log with
  | nil =>
      obtain ⟨address, hmem, -⟩ := h
      exact absurd hmem List.not_mem_nil
  | cons address addresses ih =>
      rw [assertAddresses, watched_describe]
      cases haddress : describeBlockedAddress address with
      | some reason =>
          refine ⟨.blockedUrl (host ++ " resolves to an internal address (" ++ reason ++ ")"), [],
            ?_⟩
          rw [if_neg (by simp)]
          rfl
      | none =>
          rw [if_pos rfl]
          obtain ⟨address', hmem, hblocked⟩ := h
          have hrest : address' ∈ addresses :=
            (List.mem_cons.mp hmem).resolve_left fun heq ↦ hblocked (heq ▸ haddress)
          obtain ⟨e, approved, hrun⟩ := ih ⟨address', hrest, hblocked⟩
          refine ⟨e, address :: approved, hrun.trans ?_⟩
          rw [List.map_cons, List.append_assoc]
          rfl

/-- The client connects to one address after the other. -/
theorem watched_connects (addresses : List String) :
    watched resolver (addresses.forM fun address ↦ .perform (.connect address)) ⟨n, log⟩ =
      (.ok ⟨⟩, ⟨n, log ++ addresses.map .connected⟩) := by
  induction addresses generalizing log with
  | nil =>
      rw [List.map_nil, List.append_nil]
      rfl
  | cons address addresses ih =>
      show watched resolver (.perform (.connect address) >>= fun _ ↦ addresses.forM _) _ = _
      rw [watched_bind]
      refine ih.trans ?_
      rw [List.map_cons, List.append_cons]
      rfl

/-- What comes of the check: the URL is refused, or its host is an address, or a name that passes
on the first answer. -/
inductive Assertion (parse : String → Option Url) (resolver : Resolver) (raw : String) :
    Except NetError Url × Recorded Nat NetNote → Prop
  | refused (e : NetError) (n : Nat) (approved : List String)
      (h : ∀ url first, ¬ Passes parse resolver raw url first) :
      Assertion parse resolver raw (.error e, ⟨n, approved.map .approved⟩)
  | literal (url : Url) (h : isIP (bareHost url.hostname) ≠ 0)
      (hnamed : ∀ url first, ¬ Passes parse resolver raw url first) :
      Assertion parse resolver raw (.ok url, ⟨0, [.approved (bareHost url.hostname)]⟩)
  | named (url : Url) (first : List String) (h : Passes parse resolver raw url first) :
      Assertion parse resolver raw (.ok url, ⟨1, first.map .approved⟩)

theorem serve_lookup : ((netServer resolver).watching watchNet).serve (.lookup host) ⟨n, log⟩ =
    match resolver n host with
    | some addresses => (.ok addresses, ⟨n + 1, log⟩)
    | none => (.error (.notFound host), ⟨n + 1, log⟩) := by
  cases h : resolver n host <;> simp [Server.watching, netServer, watchNet, h]

/-- A query of the resolver. -/
theorem watched_lookup {β : Type} (k : List String → NetM β) :
    watched resolver (.perform (.lookup host) >>= k) ⟨n, log⟩ =
      match resolver n host with
      | some addresses => watched resolver (k addresses) ⟨n + 1, log⟩
      | none => (.error (.notFound host), ⟨n + 1, log⟩) := by
  rw [watched, runBy_await, Server.reply_served, Server.after_served, serve_lookup]
  cases resolver n host <;> rfl

/-- A query of the resolver, and an error to replace its own. -/
theorem watched_lookup_or {β : Type} (e : NetError) (k : List String → NetM β) :
    watched resolver ((tryCatch (.perform (.lookup host)) fun _ ↦ throw e) >>= k) ⟨n, log⟩ =
      match resolver n host with
      | some addresses => watched resolver (k addresses) ⟨n + 1, log⟩
      | none => (.error e, ⟨n + 1, log⟩) := by
  rw [watched, runBy_bind, Prog.tryCatch_def, runBy_tryCatch, runBy_perform,
    Server.reply_served, Server.after_served, serve_lookup]
  cases resolver n host <;> rfl

theorem watched_assertPublicUrl : Assertion parse resolver raw
    (watched resolver (assertPublicUrl parse false raw) ⟨0, []⟩) := by
  rw [assertPublicUrl]
  cases hparse : parse raw with
  | none => exact .refused _ 0 [] fun url first h ↦ absurd (hparse.symm.trans h.parsed) (by simp)
  | some url =>
      have hsame : ∀ {url' first}, Passes parse resolver raw url' first → url' = url := fun h ↦
        Option.some.inj (h.parsed.symm.trans hparse)
      dsimp only
      split
      · rename_i hprotocol
        refine .refused _ 0 [] fun url' first h ↦ ?_
        obtain rfl := hsame h
        exact h.protocol.elim hprotocol.1 hprotocol.2
      · rename_i hprotocol
        split
        · rename_i hcredentials
          refine .refused _ 0 [] fun url' first h ↦ ?_
          obtain rfl := hsame h
          exact hcredentials.elim (· h.bare.1) (· h.bare.2)
        · rename_i hcredentials
          rw [if_neg (by simp)]
          split
          · rename_i hliteral
            have hnamed : ∀ url' first, ¬ Passes parse resolver raw url' first := by
              intro url' first h
              obtain rfl := hsame h
              exact hliteral h.named
            rw [watched_describe]
            cases hblocked : describeBlockedAddress (bareHost url.hostname) with
            | some reason =>
                rw [if_neg (by simp)]
                exact .refused _ 0 [] hnamed
            | none =>
                rw [if_pos rfl]
                exact .literal url hliteral hnamed
          · rename_i hliteral
            rw [watched_lookup_or]
            cases hanswer : resolver 0 (bareHost url.hostname) with
            | none =>
                refine .refused _ 1 [] fun url' first h ↦ ?_
                obtain rfl := hsame h
                exact absurd (hanswer.symm.trans h.answer) (by simp)
            | some first =>
                have hfirst : ∀ {url' first'}, Passes parse resolver raw url' first' →
                    first' = first := by
                  intro url' first' h
                  obtain rfl := hsame h
                  exact Option.some.inj (h.answer.symm.trans hanswer)
                dsimp only
                split
                · rename_i hempty
                  refine .refused _ 1 [] fun url' first' h ↦ ?_
                  obtain rfl := hfirst h
                  exact h.nonempty hempty
                · rename_i hnonempty
                  rw [watched_bind]
                  by_cases hjudged : ∀ address ∈ first, describeBlockedAddress address = none
                  · rw [watched_assertAddresses hjudged]
                    refine .named url first ⟨hparse, ?_, ?_, ?_, hanswer, hnonempty, hjudged⟩
                    · exact (not_and_or.mp hprotocol).imp not_not.mp not_not.mp
                    · exact (not_or.mp hcredentials).imp not_not.mp not_not.mp
                    · exact not_not.mp hliteral
                  · have hblocked : ∃ address ∈ first, describeBlockedAddress address ≠ none := by
                      push Not at hjudged
                      exact hjudged
                    obtain ⟨e, approved, hrun⟩ := watched_assertAddresses_blocked hblocked
                    rw [hrun]
                    refine .refused e 1 approved fun url' first' h ↦ ?_
                    obtain rfl := hfirst h
                    exact hjudged h.judged

/-- Each connection is to an address that has been approved if and only if the client keeps to the
first answer of the resolver. -/
theorem safeFetch_checked_iff (parse : String → Option Url) (client : HttpClient)
    (resolver : Resolver) (raw : String) :
    Checked (watched resolver (safeFetch parse client false raw) ⟨0, []⟩).2.log ↔
      Steady parse client resolver raw := by
  have hassertion : Assertion parse resolver raw
      (watched resolver (assertPublicUrl parse false raw) ⟨0, []⟩) :=
    watched_assertPublicUrl
  rw [safeFetch, watched_bind]
  generalize watched resolver (assertPublicUrl parse false raw) ⟨0, []⟩ = out at hassertion ⊢
  cases hassertion with
  | refused e n approved h =>
      refine ⟨fun _ url first _ hpasses ↦ absurd hpasses (h url first), fun _ address hmem ↦ ?_⟩
      simp at hmem
  | literal url h hnamed =>
      refine ⟨fun _ url first _ hpasses ↦ absurd hpasses (hnamed url first), fun _ ↦ ?_⟩
      have hfetch : fetch client url = .perform (.connect (bareHost url.hostname)) := by
        rw [fetch, if_pos h]
      dsimp only
      rw [hfetch]
      intro address hmem
      have haddress : address = bareHost url.hostname := by
        simpa [watched, runBy_perform, Server.watching, watchNet] using hmem
      rw [haddress]
      exact List.mem_append_left _ (List.mem_singleton_self _)
  | named url first h =>
      have hfetch : fetch client url = .perform (.lookup (bareHost url.hostname)) >>= fun second ↦
          (client.attempts second).forM fun address ↦ .perform (.connect address) := by
        rw [fetch, if_neg (not_not.mpr h.named)]
      have honly : ∀ {url' first'}, Passes parse resolver raw url' first' →
          url' = url ∧ first' = first := by
        intro url' first' h'
        obtain rfl := Option.some.inj (h'.parsed.symm.trans h.parsed)
        exact ⟨rfl, Option.some.inj (h'.answer.symm.trans h.answer)⟩
      dsimp only
      rw [hfetch, watched_lookup]
      cases hanswer : resolver 1 (bareHost url.hostname) with
      | none =>
          refine ⟨fun _ url' first' second h' hsecond ↦ ?_, fun _ address hmem ↦ ?_⟩
          · rw [(honly h').1, hanswer] at hsecond
            cases hsecond
          · simp at hmem
      | some second =>
          dsimp only
          rw [watched_connects]
          constructor
          · intro hchecked url' first' second' h' hsecond
            rw [(honly h').1, hanswer] at hsecond
            obtain rfl := Option.some.inj hsecond
            rw [(honly h').2]
            intro address hmem
            simpa using hchecked address (by simpa using hmem)
          · intro hsteady address hmem
            have hattempt : address ∈ client.attempts second := by simpa using hmem
            simpa using hsteady url first second h hanswer hattempt

/-- A resolver that answers both queries alike is not a problem. -/
theorem Steady.of_stable (h : ∀ host, resolver 1 host = resolver 0 host) :
    Steady parse client resolver raw := by
  intro url first second hpasses hsecond
  rw [h, hpasses.answer] at hsecond
  obtain rfl := Option.some.inj hsecond
  exact client.attempts_subset first

end Runs

/-- A client that tries all addresses. -/
def eagerClient : HttpClient := ⟨fun addresses ↦ addresses, fun _ ↦ List.Subset.refl _⟩

/-- A public address for the first query, and another for those that follow. -/
def rebindingResolver : Resolver
  | 0, _ => some ["93.184.216.34"]
  | _, _ => some ["169.254.169.254"]

/-- The name is resolved twice, and the second answer is not judged. -/
theorem safeFetch_unchecked :
    ¬ Checked (watched rebindingResolver (safeFetch
      (fun _ ↦ some { protocol := "http:", hostname := "rebind.example" }) eagerClient false
      "http://rebind.example/") ⟨0, []⟩).2.log := by
  have hlog : (watched rebindingResolver (safeFetch
      (fun _ ↦ some { protocol := "http:", hostname := "rebind.example" }) eagerClient false
      "http://rebind.example/") ⟨0, []⟩).2.log =
        [.approved "93.184.216.34", .connected "169.254.169.254"] := by
    decide +kernel
  rw [hlog]
  intro h
  have := h "169.254.169.254" (by simp)
  exact absurd this (by decide)

end Net

end Zenstier
