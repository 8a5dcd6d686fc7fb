import TaintPolicy.Selection

/-!
# Policy files

What the enforcement runtime reads: one policy with its gates and its taint rules, and a stub of the
customer that the policy is for. Compiling is a function of the chosen tools, the chosen rules and
the name, and of nothing else.
-/

namespace TaintPolicy

structure Customer where
  apiKey : String := ""
  owner : String := ""
  upstreamUrl : String := ""
  policyName : String
deriving DecidableEq, Repr, Inhabited

namespace Customer

def toJson (c : Customer) : Json :=
  .obj [
    ("api_key", .str c.apiKey),
    ("owner", .str c.owner),
    ("mcp_upstream_url", .str c.upstreamUrl),
    ("policy_name", .str c.policyName)]

def ofJson? (v : Json) : Option Customer := do
  let fs ← Json.record? ["api_key", "owner", "mcp_upstream_url", "policy_name"] 4 v
  let apiKey ← Json.field? Json.text? "api_key" fs
  let owner ← Json.field? Json.text? "owner" fs
  let upstreamUrl ← Json.field? Json.text? "mcp_upstream_url" fs
  let policyName ← Json.field? Json.text? "policy_name" fs
  some ⟨apiKey, owner, upstreamUrl, policyName⟩

end Customer

structure Policy where
  name : String
  gates : KeyMap Gate
  rules : List Entry
deriving DecidableEq, Inhabited

namespace Policy

def toJson (p : Policy) : Json :=
  .obj [
    ("name", .str p.name),
    ("static_rules", p.gates.toJson Gate.toJson),
    ("taint_rules", .arr (p.rules.map Entry.toJson))]

def ofJson? (v : Json) : Option Policy := do
  let fs ← Json.record? ["name", "static_rules", "taint_rules"] 3 v
  let name ← Json.field? Json.text? "name" fs
  let gates ← Json.field? (KeyMap.ofJson? Gate.ofJson?) "static_rules" fs
  let rules ← Json.field? (Json.list? Entry.ofJson?) "taint_rules" fs
  some ⟨name, gates, rules⟩

end Policy

structure PolicyFile where
  customers : List Customer
  policies : List Policy
deriving DecidableEq, Inhabited

namespace PolicyFile

def toJson (f : PolicyFile) : Json :=
  .obj [
    ("customers", .arr (f.customers.map Customer.toJson)),
    ("policies", .arr (f.policies.map Policy.toJson))]

def ofJson? (v : Json) : Option PolicyFile := do
  let fs ← Json.record? ["customers", "policies"] 2 v
  let customers ← Json.field? (Json.list? Customer.ofJson?) "customers" fs
  let policies ← Json.field? (Json.list? Policy.ofJson?) "policies" fs
  some ⟨customers, policies⟩

end PolicyFile

/-- The name of a policy whose requested name is blank. -/
def defaultPolicyName : String := "default_policy"

/-- The requested name without the blanks around it. -/
def policyName (requested : String) : String :=
  let name := trim requested
  if name = "" then defaultPolicyName else name

/-- The gate of each chosen tool: its own where overrides are honored, otherwise `ALLOW`. -/
def compileGates (honor : Bool) (tools : List Selected) : KeyMap Gate :=
  .ofList (tools.map fun t => (t.name, if honor then t.gate else .allow))

def compileParts (honor : Bool) (tools : List Selected) (rules : List NamedRule)
    (requested : String) : PolicyFile :=
  let name := policyName requested
  { customers := [{ policyName := name }]
    policies := [{
      name
      gates := compileGates honor tools
      rules := rules.map fun r => r.rule.toEntry }] }

/-- The policy file of a selection. -/
def Selection.compile (honor : Bool) (s : Selection) : PolicyFile :=
  compileParts honor s.tools s.rules s.policyName

end TaintPolicy
