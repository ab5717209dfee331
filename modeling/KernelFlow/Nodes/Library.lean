import Mathlib
import KernelFlow.Library.OrderedMap
import KernelFlow.Nodes.Registry

namespace KernelFlow

/-!
# The node library

`execute` of the five node kinds of the standard library.  The HTTP client is
outside the repository and appears as a parameter with the operations that the
fetch node uses; its answers may differ from call to call.  Numbers are
rationals, and the floating-point operations of the median are a parameter
whose exact instance the library uses.
-/

/-! ## Reading and building values -/

/-- `as_f64` on a number. -/
def Number.asF64 : Number -> ℚ
  | .posInt value => value.toNat
  | .negInt value => value.val.toInt
  | .float value => value
  | .negZero => 0

/-- `as_f64` on a document. -/
def Json.asF64 : Json -> Option ℚ
  | .number value => some value.asF64
  | _ => none

theorem Json.asF64_eq_none_iff (document : Json) :
    document.asF64 = none ↔ forall value, document ≠ .number value := by
  cases document <;> simp [asF64]

namespace Value

def number (value : Number) : Value := ⟨.number value, trivial⟩

def string (value : String) : Value := ⟨.string value, trivial⟩

/-- `json!` on a float; a result that is not finite turns into `null`. -/
def ofFloat : Option ℚ -> Value
  | none => null
  | some value => number (.float value)

end Value

namespace Nodes

/-- The floating-point operations of the median and the threshold. -/
structure FloatOps where
  /-- a sum that is not finite is `none` -/
  add : ℚ -> ℚ -> Option ℚ
  half : ℚ -> ℚ
  /-- a number as a float: an integer is rounded, and a float is left alone -/
  cast : ℚ -> ℚ
  /-- a difference, of which the threshold asks whether it is small -/
  sub : ℚ -> ℚ -> ℚ

/-- Arithmetic on exact rationals. -/
def FloatOps.exact : FloatOps where
  add := fun left right => some (left + right)
  half := fun value => value / 2
  cast := id
  sub := fun left right => left - right

/-- The HTTP client as the fetch node uses it. -/
structure HttpClient where
  /-- `ClientBuilder::timeout` and `build`, which may fail with a message -/
  builder : Duration -> Except String Unit
  /-- the host to which a GET for the URL goes; none if the URL is refused -/
  host : String -> Option String
  /-- the body of the response to a GET, or the text of the error -/
  get : String -> Except String String
  /-- `serde_json::from_str` on a body -/
  parse : String -> Option Value

/-- A client without a network. -/
def HttpClient.offline : HttpClient where
  builder := fun _timeout => .ok ()
  host := fun _url => none
  get := fun _url => .error "error sending request"
  parse := fun _body => none

/-! ## Constant -/

structure ConstantNode where
  value : Value

def ConstantNode.execute (node : ConstantNode) (_input : NodeInput) : KernelResult NodeOutput :=
  .ok ⟨node.value, 1⟩

/-! ## SHA-256 -/

def Sha256Node.execute (backend : HashBackend) (input : NodeInput) : KernelResult NodeOutput :=
  .ok ⟨Value.string (hashJson backend input.payload), 5⟩

/-! ## HTTP fetch -/

structure HttpFetchNode where
  url : String
  allowlist : List String
  timeout : Duration

namespace HttpFetchNode

def new (url : String) (allowlist : List String) : HttpFetchNode where
  url := url
  allowlist := allowlist
  timeout := 10000000000

/-- `str::contains` on a string pattern. -/
def occursIn (pattern text : String) : Bool :=
  decide (pattern.toList <:+: text.toList)

def allowed (node : HttpFetchNode) (url : String) : Bool :=
  if node.allowlist.isEmpty then true
  else node.allowlist.any fun host => occursIn host url

/-- The hosts to which the node sends its GET, and its result. -/
def execute (node : HttpFetchNode) (client : HttpClient) (_input : NodeInput) :
    List String × KernelResult NodeOutput :=
  if !node.allowed node.url then
    ([], .error (.invalidInput ("host not in allowlist: " ++ node.url)))
  else
    match client.builder node.timeout with
    | .error message => ([], .error (.network message))
    | .ok () =>
        ((client.host node.url).toList,
          match client.get node.url with
          | .error message => .error (.network message)
          | .ok body => .ok ⟨(client.parse body).getD (Value.string body), 50⟩)

end HttpFetchNode

/-! ## Median -/

namespace MedianNode

/-- The number in a parent output: the output itself, or its member `value`. -/
def reading (output : Json) : Option ℚ :=
  output.asF64.or ((output.child (.member "value")).bind Json.asF64)

/-- The middle of a nonempty list of numbers. -/
def middle (ops : FloatOps) (nums : List ℚ) (nonempty : nums ≠ []) : Option ℚ :=
  let sorted := nums.mergeSort fun left right => decide (left ≤ right)
  let n := sorted.length
  have positive : 0 < sorted.length := by
    rw [List.length_mergeSort]
    exact List.length_pos_of_ne_nil nonempty
  have upper : n / 2 < sorted.length := Nat.div_lt_self positive (by decide)
  have lower : n / 2 - 1 < sorted.length := Nat.lt_of_le_of_lt (Nat.sub_le _ _) upper
  if n % 2 = 1 then some sorted[n / 2]
  else (ops.add sorted[n / 2 - 1] sorted[n / 2]).map ops.half

def execute (ops : FloatOps) (input : NodeInput) : KernelResult NodeOutput :=
  let nums := input.parents.values.filterMap fun v => reading v.json
  if empty : nums = [] then .error (.invalidInput "no numeric parents for median")
  else .ok ⟨Value.ofFloat (middle ops nums empty), 3⟩

end MedianNode

/-! ## Threshold -/

inductive Op
  | gt
  | gte
  | lt
  | lte
  | eq

/-- `f64::EPSILON`. -/
def epsilon : ℚ := 1 / 2 ^ 52

def Op.holds (op : Op) (n threshold : ℚ) : Bool :=
  match op with
  | .gt => decide (threshold < n)
  | .gte => decide (threshold ≤ n)
  | .lt => decide (n < threshold)
  | .lte => decide (n ≤ threshold)
  | .eq => decide (|n - threshold| < epsilon)

structure ThresholdNode where
  threshold : ℚ
  op : Op

namespace ThresholdNode

def gt (threshold : ℚ) : ThresholdNode where
  threshold := threshold
  op := .gt

/-- The object with the members `ok` and `value`. -/
def report (ok : Bool) (n : ℚ) : Value :=
  ⟨.object [("ok", .bool ok), ("value", .number (.float n))], by
    simp [Json.Distinct, Json.DistinctMembers]⟩

/-- The first parent's number, or else the payload. -/
def execute (node : ThresholdNode) (input : NodeInput) : KernelResult NodeOutput :=
  match (input.parents.values.head?.bind fun v => v.json.asF64).or input.payload.json.asF64 with
  | none => .error (.invalidInput "threshold needs numeric input")
  | some n => .ok ⟨report (node.op.holds n node.threshold) n, 1⟩

end ThresholdNode

/-! ## The library as one type -/

/-- An instance of a kind of the standard library. -/
inductive StdNode
  | constant (node : ConstantNode)
  | sha256
  | httpFetch (node : HttpFetchNode)
  | median
  | threshold (node : ThresholdNode)

namespace StdNode

def kind : StdNode -> String
  | .constant _ => "constant"
  | .sha256 => "sha256"
  | .httpFetch _ => "http_fetch"
  | .median => "median"
  | .threshold _ => "threshold"

def execute (backend : HashBackend) (client : HttpClient) (node : StdNode) (input : NodeInput) :
    KernelResult NodeOutput :=
  match node with
  | .constant node => node.execute input
  | .sha256 => Sha256Node.execute backend input
  | .httpFetch node => (node.execute client input).2
  | .median => MedianNode.execute .exact input
  | .threshold node => node.execute input

/-- The descriptor under which the kind is registered. -/
def descriptor : StdNode -> NodeDescriptor
  | .constant _ => constantDescriptor
  | .sha256 => sha256Descriptor
  | .httpFetch _ => httpFetchDescriptor
  | .median => medianDescriptor
  | .threshold _ => thresholdDescriptor

/-- Every kind of the library is registered. -/
theorem describe_kind (node : StdNode) :
    NodeRegistry.withStdlib.describe node.kind = some node.descriptor := by
  have registered : forall descriptor : NodeDescriptor,
      descriptor ∈ [constantDescriptor, sha256Descriptor, httpFetchDescriptor, medianDescriptor,
        thresholdDescriptor] ->
      NodeRegistry.withStdlib.describe descriptor.kind = some descriptor := by
    intro descriptor member
    simp only [List.mem_cons, List.not_mem_nil, or_false] at member
    rcases member with rfl | rfl | rfl | rfl | rfl
    · rfl
    · rfl
    · rfl
    · rfl
    · rfl
  cases node with
  | constant node => exact registered constantDescriptor (by simp)
  | sha256 => exact registered sha256Descriptor (by simp)
  | httpFetch node => exact registered httpFetchDescriptor (by simp)
  | median => exact registered medianDescriptor (by simp)
  | threshold node => exact registered thresholdDescriptor (by simp)

/-- The registry admits an edge exactly when the shapes fit. -/
theorem validateEdge_ok_iff (producer consumer : StdNode) :
    NodeRegistry.withStdlib.validateEdge producer.kind consumer.kind = .ok () ↔
      assignable producer.descriptor.output consumer.descriptor.input = true := by
  rw [NodeRegistry.validateEdge_ok_iff, describe_kind, describe_kind]
  simp

end StdNode

end Nodes
end KernelFlow
