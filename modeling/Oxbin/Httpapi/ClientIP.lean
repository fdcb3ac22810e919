import Oxbin.Data.Netip

/-!
# Client addresses

`internal/httpapi/clientip.go` finds the address of a client behind trusted proxies.  The proxies
append the addresses that they see to `X-Forwarded-For`, so that a client decides about the front
of the header only.
-/

namespace Oxbin.Httpapi

open Netip

/-- What `resolveClientIP` reads of a request: `RemoteAddr` and the values of the header
`X-Forwarded-For`. -/
structure ForwardedRequest where
  remoteAddr : List UInt8
  forwardedFor : List (List UInt8)

/-- `Header.Get`. -/
def ForwardedRequest.forwarded (request : ForwardedRequest) : List UInt8 :=
  request.forwardedFor.head?.getD []

/-- `remoteIP`. -/
def remoteIP (remoteAddr : List UInt8) : Option Addr := do
  let (host, _) ← splitHostPort remoteAddr
  let ip ← parseAddr host
  some ip.unmap

/-- `isTrusted`. -/
def isTrusted (ip : Addr) (trusted : List Prefix) : Bool :=
  trusted.any fun range => range.contains ip

/-- One hop of the header. -/
def parseHop (hop : List UInt8) : Option Addr := (parseAddr (trimSpace hop)).map Addr.unmap

/-- The hops of a header, if all of them are addresses. -/
def parseHops (forwarded : List UInt8) : Option (List Addr) :=
  (split (byte ',') forwarded).mapM parseHop

/-- `resolveClientIP`. -/
def resolveClientIP (request : ForwardedRequest) (trusted : List Prefix) : Addr :=
  match remoteIP request.remoteAddr with
  | none => .zero
  | some remote =>
      if !isTrusted remote trusted then remote
      else if request.forwarded = [] then remote
      else
        match parseHops request.forwarded with
        | none => remote
        | some parsed =>
            match parsed.reverse.find? fun ip => !isTrusted ip trusted with
            | some ip => ip
            | none => parsed.head?.getD .zero

theorem parseHops_append (text suffix : List UInt8) :
    parseHops (text ++ byte ',' :: suffix) =
      (parseHops text).bind fun front => (parseHops suffix).map (front ++ ·) := by
  rw [parseHops, split_append, List.mapM_append]
  simp only [Option.bind_eq_bind, Option.pure_def, Option.map_eq_bind, Function.comp_def]
  rfl

/-- The last untrusted address of a list. -/
theorem find?_reverse_eq {trusted : List Prefix} {front back : List Addr} {ip : Addr}
    (untrusted : isTrusted ip trusted = false)
    (proxies : ∀ other ∈ back, isTrusted other trusted = true) :
    (front ++ ip :: back).reverse.find? (fun ip => !isTrusted ip trusted) = some ip := by
  have passed : back.reverse.find? (fun ip => !isTrusted ip trusted) = none := by
    rw [List.find?_eq_none]
    intro other member
    simp [proxies other (List.mem_reverse.mp member)]
  rw [List.reverse_append, List.reverse_cons, List.append_assoc, List.find?_append, passed,
    Option.none_or, List.singleton_append, List.find?_cons_of_pos (by simp [untrusted])]

section

variable {trusted : List Prefix} {remoteAddr : List UInt8} {remote : Addr}

/-- Without a trusted remote the header is not read. -/
theorem resolveClientIP_untrusted (forwardedFor : List (List UInt8))
    (untrusted : ∀ remote, remoteIP remoteAddr = some remote → isTrusted remote trusted = false) :
    resolveClientIP ⟨remoteAddr, forwardedFor⟩ trusted =
      (remoteIP remoteAddr).getD .zero := by
  rw [resolveClientIP]
  cases parsed : remoteIP remoteAddr with
  | none => rfl
  | some remote => simp [untrusted remote parsed]

/-- Behind a trusted remote the address is the last untrusted one of the header, as long as all
hops are addresses, and the remote otherwise. -/
theorem resolveClientIP_trusted (parsed : remoteIP remoteAddr = some remote)
    (proxy : isTrusted remote trusted = true) {suffix : List UInt8} {front back : List Addr}
    {ip : Addr} (hops : parseHops suffix = some (front ++ ip :: back))
    (untrusted : isTrusted ip trusted = false)
    (proxies : ∀ other ∈ back, isTrusted other trusted = true) (text : List UInt8)
    (values : List (List UInt8)) :
    resolveClientIP ⟨remoteAddr, suffix :: values⟩ trusted = ip ∧
      resolveClientIP ⟨remoteAddr, (text ++ byte ',' :: suffix) :: values⟩ trusted =
        if (parseHops text).isSome then ip else remote := by
  have present : suffix ≠ [] := by
    rintro rfl
    have empty : parseHops [] = none := by decide
    rw [empty] at hops
    cases hops
  have accepted {value : List UInt8} {front : List Addr} (nonempty : value ≠ [])
      (read : parseHops value = some (front ++ ip :: back)) :
      resolveClientIP ⟨remoteAddr, value :: values⟩ trusted = ip := by
    rw [resolveClientIP, parsed]
    simp only [proxy, Bool.not_true, Bool.false_eq_true, if_false, ForwardedRequest.forwarded,
      List.head?_cons, Option.getD_some, if_neg nonempty, read,
      find?_reverse_eq untrusted proxies]
  refine ⟨accepted present hops, ?_⟩
  have whole := parseHops_append text suffix
  rw [hops] at whole
  cases spoofed : parseHops text with
  | none =>
      rw [spoofed, Option.bind_none] at whole
      rw [resolveClientIP, parsed]
      simp only [proxy, Bool.not_true, Bool.false_eq_true, if_false, ForwardedRequest.forwarded,
        List.head?_cons, Option.getD_some, whole, Option.isSome_none, ite_self]
  | some spoof =>
      rw [spoofed, Option.bind_some, Option.map_some, ← List.append_assoc] at whole
      rw [accepted (by simp) whole]
      rfl

end

/-- Some address is the last untrusted one. -/
theorem exists_rightmost {trusted : List Prefix} {hops : List Addr}
    (untrusted : ∃ ip ∈ hops, isTrusted ip trusted = false) :
    ∃ front ip back, hops = front ++ ip :: back ∧ isTrusted ip trusted = false ∧
      ∀ other ∈ back, isTrusted other trusted = true := by
  induction hops with
  | nil =>
      obtain ⟨_, member, _⟩ := untrusted
      cases member
  | cons hop hops induction =>
      by_cases later : ∃ ip ∈ hops, isTrusted ip trusted = false
      · obtain ⟨front, ip, back, rfl, last⟩ := induction later
        exact ⟨hop :: front, ip, back, rfl, last⟩
      · have proxies : ∀ other ∈ hops, isTrusted other trusted = true := fun other member =>
          eq_true_of_ne_false fun foreign => later ⟨other, member, foreign⟩
        obtain ⟨ip, member, foreign⟩ := untrusted
        rcases List.mem_cons.mp member with rfl | member
        · exact ⟨[], ip, hops, rfl, foreign, proxies⟩
        · exact absurd (proxies ip member) (by simp [foreign])

/-- Whatever the trusted prefixes are.  Behind a trusted remote, hops with an untrusted address
among them give the last untrusted one, and so does every header that puts further hops in front of
them; only text in front that is no list of hops makes the remote the client.  Without a trusted
remote the header has no influence. -/
theorem resolveClientIP_forwarded (trusted : List Prefix) :
    (∀ remoteAddr remote, remoteIP remoteAddr = some remote → isTrusted remote trusted = true →
      ∀ suffix hops, parseHops suffix = some hops →
      (∃ ip ∈ hops, isTrusted ip trusted = false) →
      ∃ front ip back, hops = front ++ ip :: back ∧ isTrusted ip trusted = false ∧
        (∀ other ∈ back, isTrusted other trusted = true) ∧
        ∀ values, resolveClientIP ⟨remoteAddr, suffix :: values⟩ trusted = ip ∧
          ∀ text, resolveClientIP ⟨remoteAddr, (text ++ byte ',' :: suffix) :: values⟩ trusted =
            if (parseHops text).isSome then ip else remote) ∧
    ∀ remoteAddr, (∀ remote, remoteIP remoteAddr = some remote → isTrusted remote trusted = false) →
      ∀ forwardedFor forwardedFor', resolveClientIP ⟨remoteAddr, forwardedFor⟩ trusted =
        resolveClientIP ⟨remoteAddr, forwardedFor'⟩ trusted := by
  constructor
  · intro remoteAddr remote parsed proxy suffix hops read untrusted
    obtain ⟨front, ip, back, rfl, foreign, proxies⟩ := exists_rightmost untrusted
    have resolved := resolveClientIP_trusted parsed proxy read foreign proxies
    exact ⟨front, ip, back, rfl, foreign, proxies, fun values =>
      ⟨(resolved [] values).1, fun text => (resolved text values).2⟩⟩
  · intro remoteAddr untrusted forwardedFor forwardedFor'
    rw [resolveClientIP_untrusted forwardedFor untrusted,
      resolveClientIP_untrusted forwardedFor' untrusted]

/-- The prefix 10.0.0.0/8. -/
def tenPrefix : Prefix := .v4 0x0A000000 8

/-- Behind the proxy 10.0.0.10 a client sends an address of its own. -/
theorem resolveClientIP_forwarded_spoofed :
    resolveClientIP ⟨ascii "10.0.0.10:1234",
        [ascii "203.0.113.9" ++ byte ',' :: ascii " 198.51.100.8, 10.0.0.9"]⟩ [tenPrefix] =
      .v4 0xC6336408 := by
  obtain ⟨front, ip, back, whole, foreign, proxies, resolved⟩ :=
    (resolveClientIP_forwarded [tenPrefix]).1 (ascii "10.0.0.10:1234") (.v4 0x0A00000A) (by decide)
      (by decide) (ascii " 198.51.100.8, 10.0.0.9") [.v4 0xC6336408, .v4 0x0A000009] (by decide)
      ⟨.v4 0xC6336408, by simp, by decide⟩
  have spoofed := (resolved []).2 (ascii "203.0.113.9")
  rw [if_pos (by decide)] at spoofed
  rw [spoofed]
  rcases front with _ | ⟨first, _ | ⟨second, rest⟩⟩
  · cases whole
    rfl
  · cases whole
    exact absurd foreign (by decide)
  · simp at whole

/-- Text that is no address makes the proxy the client. -/
theorem resolveClientIP_malformed :
    resolveClientIP ⟨ascii "10.0.0.10:1234", [ascii " 198.51.100.8"]⟩ [tenPrefix] =
        .v4 0xC6336408 ∧
      resolveClientIP ⟨ascii "10.0.0.10:1234", [ascii "x" ++ byte ',' :: ascii " 198.51.100.8"]⟩
        [tenPrefix] = .v4 0x0A00000A := by decide

end Oxbin.Httpapi
