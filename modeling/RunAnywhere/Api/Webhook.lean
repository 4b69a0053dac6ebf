import RunAnywhere.Contracts.Net
import RunAnywhere.Logic.Blocks

/-!
# Where webhooks may go

`api/src/webhook.rs`: a webhook URL is resolved, and refused when one of its addresses is
private, local, reserved or not routable.

* **screening** — `isForbiddenTarget` and its two predicates;
* **resolution** — `resolveWebhookTarget`; the URL parser and the resolver are parameters.
-/

namespace RunAnywhere

open Logic

/-! ## Screening -/

structure WebhookPolicy where
  allowPrivateNetworks : Bool
  deriving DecidableEq

/-- `is_private_ip`, of an IPv4 address. -/
def Ipv4Addr.isPrivate (x : Ipv4Addr) : Bool :=
  decide (x.a = 10) || (decide (x.a = 172) && decide (16 ≤ x.b ∧ x.b ≤ 31)) ||
    (decide (x.a = 192) && decide (x.b = 168))

/-- `is_private_ip`. -/
def isPrivateIp : IpAddr → Bool
  | .v4 x => x.isPrivate
  | .v6 x =>
      match x.toIpv4 with
      | some mapped => mapped.isPrivate
      | none => decide (x.s0 &&& 0xfe00 = 0xfc00)

/-- `is_always_forbidden_ip`, of an IPv4 address. -/
def Ipv4Addr.isAlwaysForbidden (x : Ipv4Addr) : Bool :=
  decide (x.a = 0) || decide (x.a = 127) ||
    (decide (x.a = 100) && decide (64 ≤ x.b ∧ x.b ≤ 127)) ||
    (decide (x.a = 169) && decide (x.b = 254)) ||
    (decide (x.a = 192) && decide (x.b = 0) && decide (x.c = 0)) ||
    (decide (x.a = 192) && decide (x.b = 0) && decide (x.c = 2)) ||
    (decide (x.a = 198) && (decide (x.b = 18) || decide (x.b = 19))) ||
    (decide (x.a = 198) && decide (x.b = 51) && decide (x.c = 100)) ||
    (decide (x.a = 203) && decide (x.b = 0) && decide (x.c = 113)) ||
    decide (224 ≤ x.a) ||
    (decide (x.a = 255) && decide (x.b = 255) && decide (x.c = 255) && decide (x.d = 255))

/-- `is_always_forbidden_ip`. -/
def isAlwaysForbiddenIp : IpAddr → Bool
  | .v4 x => x.isAlwaysForbidden
  | .v6 x =>
      match x.toIpv4 with
      | some mapped => mapped.isAlwaysForbidden
      | none =>
          x.isUnspecified || x.isLoopback ||
            (decide (x.s0 = 0x0064) && decide (x.s1 = 0xff9b) &&
              (decide (x.s2 = 0 ∧ x.s3 = 0 ∧ x.s4 = 0 ∧ x.s5 = 0) || decide (x.s2 = 0x0001))) ||
            decide (x.s0 &&& 0xffc0 = 0xfe80) || decide (x.s0 &&& 0xffc0 = 0xfec0) ||
            decide (x.s0 &&& 0xff00 = 0xff00) ||
            (decide (x.s0 = 0x2001) && decide (x.s1 = 0x0db8)) ||
            (decide (x.s0 = 0x0100) && decide (x.s1 = 0 ∧ x.s2 = 0 ∧ x.s3 = 0 ∧ x.s4 = 0 ∧
              x.s5 = 0 ∧ x.s6 = 0 ∧ x.s7 = 0))

/-- `is_forbidden_target`. -/
def isForbiddenTarget (address : IpAddr) (policy : WebhookPolicy) : Bool :=
  isAlwaysForbiddenIp address || (!policy.allowPrivateNetworks && isPrivateIp address)

/-! ## Resolution -/

inductive WebhookValidationError
  | invalidUrl
  | unsupportedScheme
  | unsafeUrlComponents
  | resolve (error : String)
  | noAddresses
  | privateNetwork
  deriving DecidableEq

/-- The URL parser and the resolver. -/
structure Network where
  parse : String → Option Url
  lookupHost : String → Nat → Except String (List SocketAddr)

/-- The addresses of a host. -/
def Network.addresses (net : Network) (port : Nat) :
    Host → Except WebhookValidationError (List SocketAddr)
  | .ipv4 address => .ok [⟨.v4 address, port⟩]
  | .ipv6 address => .ok [⟨.v6 address, port⟩]
  | .domain name => (net.lookupHost name port).mapError .resolve

structure ResolvedWebhookTarget where
  url : Url
  domain : Option String
  addresses : List SocketAddr

/-- `resolve_webhook_target`. -/
def resolveWebhookTarget (net : Network) (value : String) (policy : WebhookPolicy) :
    Except WebhookValidationError ResolvedWebhookTarget := do
  let some parsed := net.parse value | throw .invalidUrl
  if ¬ (parsed.scheme = "http" ∨ parsed.scheme = "https") then throw .unsupportedScheme
  if ¬ parsed.username.isEmpty ∨ parsed.password.isSome ∨ parsed.fragment.isSome then
    throw .unsafeUrlComponents
  let some host := parsed.host | throw .invalidUrl
  let some port := parsed.portOrKnownDefault | throw .invalidUrl
  let answers ← net.addresses port host
  if answers.isEmpty then throw .noAddresses
  let addresses := (answers.mergeSort SocketAddr.le).destutter (· ≠ ·)
  if addresses.any fun address => isForbiddenTarget address.ip policy then throw .privateNetwork
  let domain := match host with
    | .domain name => some name
    | _ => none
  return ⟨parsed, domain, addresses⟩

end RunAnywhere
