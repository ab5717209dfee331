import Mathlib
import KernelFlow.Nodes.Library

namespace KernelFlow
namespace Nodes

/-!
# Egress of the fetch node

The allowlist of a fetch node holds host names, but the check asks whether one
of them occurs anywhere in the text of the URL.  Which host a URL denotes is
decided by the HTTP client.  The node is confined to its allowlist exactly
where the two readings cannot come apart.
-/

namespace HttpFetchNode

variable {node : HttpFetchNode} {client : HttpClient}

/-- The GET for the URL of the node goes to a listed host.  Redirects are requests of the
client and not of the node. -/
def Confined (node : HttpFetchNode) (client : HttpClient) : Prop :=
  forall (input : NodeInput) (host : String),
    host ∈ (node.execute client input).1 -> host ∈ node.allowlist

/-- With a nonempty allowlist the check passes exactly when a listed name
occurs in the URL. -/
theorem allowed_iff (nonempty : node.allowlist ≠ []) (url : String) :
    node.allowed url = true ↔ ∃ entry ∈ node.allowlist, occursIn entry url = true := by
  have notEmpty : node.allowlist.isEmpty = false := List.isEmpty_eq_false_iff.mpr nonempty
  rw [allowed, notEmpty, if_neg Bool.false_ne_true, List.any_eq_true]

/-- A GET goes out exactly when the check passes, the client can be built and
it resolves the URL to a host. -/
theorem mem_execute_iff (input : NodeInput) (host : String) :
    host ∈ (node.execute client input).1 ↔ node.allowed node.url = true ∧
      client.builder node.timeout = .ok () ∧ client.host node.url = some host := by
  unfold execute
  cases node.allowed node.url with
  | false => simp
  | true =>
      cases client.builder node.timeout with
      | error message => simp
      | ok built => simp [Option.mem_toList]

/-- A node with a nonempty allowlist is confined to it exactly when no listed
name occurs in the URL text, when the client sends nothing, or when the host of
the URL is listed. -/
theorem confined_iff (node : HttpFetchNode) (client : HttpClient)
    (nonempty : node.allowlist ≠ []) :
    node.Confined client ↔
      (forall entry, entry ∈ node.allowlist -> occursIn entry node.url = false) ∨
      client.builder node.timeout ≠ .ok () ∨
      forall host, client.host node.url = some host -> host ∈ node.allowlist := by
  constructor
  · intro confined
    by_cases occurs : ∃ entry ∈ node.allowlist, occursIn entry node.url = true
    · by_cases built : client.builder node.timeout = .ok ()
      · refine Or.inr (Or.inr fun host resolved => ?_)
        exact confined ⟨0, "", Value.null, ∅⟩ host ((mem_execute_iff _ host).mpr
          ⟨(allowed_iff nonempty node.url).mpr occurs, built, resolved⟩)
      · exact Or.inr (Or.inl built)
    · refine Or.inl fun entry member => ?_
      rw [← Bool.not_eq_true]
      exact fun inside => occurs ⟨entry, member, inside⟩
  · intro condition input host sent
    rcases (mem_execute_iff input host).mp sent with ⟨allowed, built, resolved⟩
    rcases condition with absent | failed | listed
    · rcases (allowed_iff nonempty node.url).mp allowed with ⟨entry, member, inside⟩
      rw [absent entry member] at inside
      cases inside
    · exact absurd built failed
    · exact listed host resolved

end HttpFetchNode

/-! ## A listed name in the query -/

/-- The rest of a URL after its scheme. -/
def afterScheme : List Char -> Option (List Char)
  | ':' :: '/' :: '/' :: rest => some rest
  | _ :: rest => afterScheme rest
  | [] => none

/-- The host of a URL: its authority without userinfo and port. -/
def authorityHost (url : String) : Option String :=
  (afterScheme url.toList).map fun rest =>
    let authority := rest.takeWhile fun char => char ≠ '/' ∧ char ≠ '?' ∧ char ≠ '#'
    let withoutUser := (authority.reverse.takeWhile fun char => char ≠ '@').reverse
    String.ofList ((withoutUser.takeWhile fun char => char ≠ ':').map Char.toLower)

example : authorityHost "https://user@Example.com:8443/path?q=1" = some "example.com" := by decide

/-- A client that resolves ordinary URLs and gets no answers. -/
def HttpClient.resolving : HttpClient :=
  { HttpClient.offline with host := authorityHost }

namespace HttpFetchNode

/-- A URL of one host that carries the name of another one in its query. -/
def smuggled : HttpFetchNode :=
  new "https://evil.example/?q=api.good.com" ["api.good.com"]

/-- The GET goes to the host that is not listed. -/
theorem smuggled_not_confined : ¬ smuggled.Confined .resolving := by
  intro confined
  have listed := confined ⟨0, "", Value.null, ∅⟩ "evil.example" (by decide)
  exact absurd listed (by decide)

/-- The same node with the URL of the listed host is confined. -/
theorem confined_iff_listed :
    (new "https://api.good.com/price" ["api.good.com"]).Confined .resolving := by
  refine (confined_iff (new "https://api.good.com/price" ["api.good.com"]) .resolving
    (by decide)).mpr (Or.inr (Or.inr fun host resolved => ?_))
  have same : authorityHost "https://api.good.com/price" = some "api.good.com" := by decide
  change authorityHost "https://api.good.com/price" = some host at resolved
  rw [same, Option.some.injEq] at resolved
  rw [← resolved]
  exact List.mem_singleton.mpr rfl

end HttpFetchNode

end Nodes
end KernelFlow
