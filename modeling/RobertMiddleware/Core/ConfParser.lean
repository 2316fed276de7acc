import RobertMiddleware.Core.Data

/-!
# The configuration

`src/core/conf_parser.{hpp,cpp}`. `parse_conf` reads the robot and the users from a YAML file. The
library that reads YAML is not in the sources: `Yaml` is what `parse_conf` uses of it. An exception
of the library leaves `parse_conf`.

The port and the timeout of the robot are read as an `int` and stored in a `uint16_t`, without a
test.

## Main definitions

* `Yaml`, `parseConf`
* `Yaml.OthersRead` — what `parse_conf` reads besides the two numbers is there

## Main results

* `parseConf_eq_ok_iff` — what is accepted, and what becomes of it
-/

namespace RobertMiddleware

/-- `parser::UserInfo`. -/
structure UserInfo where
  username : Bytes
  password : Bytes
deriving DecidableEq

/-- `parser::RobotInfo`. -/
structure RobotInfo where
  name : Bytes
  ip : Bytes
  port : UInt16
  timeout : UInt16
deriving DecidableEq

/-- `parser::Conf`. -/
structure Conf where
  robot : RobotInfo
  users : List UserInfo
deriving DecidableEq

/-! ### The parser -/

/-- The YAML library: `LoadFile`, `operator[]`, `as`, and the iteration over a node. Each but the
last may throw. -/
structure Yaml where
  Node : Type
  loadFile : Bytes → Except String Node
  index : Node → String → Except String Node
  asString : Node → Except String Bytes
  asInt : Node → Except String Int32
  elements : Node → List Node

/-- An `int` that is stored in a `uint16_t`. -/
def narrow (n : Int32) : UInt16 := UInt16.ofInt n.toInt

/-- Sixteen bits are left of it. -/
theorem toNat_narrow (n : Int32) : ((narrow n).toNat : ℤ) = n.toInt % 2 ^ 16 := by
  have hnonneg : 0 ≤ n.toInt % 2 ^ 16 := Int.emod_nonneg _ (by norm_num)
  have hlt : n.toInt % 2 ^ 16 < 2 ^ 16 := Int.emod_lt_of_pos _ (by norm_num)
  rw [narrow, UInt16.ofInt, UInt16.toNat_ofNat']
  omega

/-- An `int` survives if it fits. -/
theorem narrow_eq_iff (n : Int32) :
    ((narrow n).toNat : ℤ) = n.toInt ↔ 0 ≤ n.toInt ∧ n.toInt < 2 ^ 16 := by
  rw [toNat_narrow]
  constructor
  · intro h
    rw [← h]
    exact ⟨Int.emod_nonneg _ (by norm_num), Int.emod_lt_of_pos _ (by norm_num)⟩
  · rintro ⟨h0, h16⟩
    exact Int.emod_eq_of_lt h0 h16

/-- `config_node["robot"][key]`. -/
def Yaml.robot (Y : Yaml) (configNode : Y.Node) (key : String) : Except String Y.Node := do
  Y.index (← Y.index configNode "robot") key

/-- The body of the loop over the users. -/
def parseUser (Y : Yaml) (user : Y.Node) : Except String UserInfo := do
  let userName ← Y.asString (← Y.index user "username")
  let userPassword ← Y.asString (← Y.index user "password")
  return ⟨userName, userPassword⟩

/-- `parse_conf`. -/
def parseConf (Y : Yaml) (path : Bytes) : Except String Conf := do
  let configNode ← Y.loadFile path
  let robotName ← Y.asString (← Y.robot configNode "name")
  let robotIp ← Y.asString (← Y.robot configNode "ip")
  let robotPort ← Y.asInt (← Y.robot configNode "port")
  let robotTimeout ← Y.asInt (← Y.robot configNode "timeout")
  let usersNode ← Y.index configNode "users"
  let users ← (Y.elements usersNode).mapM (parseUser Y)
  return ⟨⟨robotName, robotIp, narrow robotPort, narrow robotTimeout⟩, users⟩

/-! ### What is in the file -/

namespace Yaml

variable (Y : Yaml) (path : Bytes) (key : String)

/-- The string `robot.key` of the file. -/
def robotString : Except String Bytes := do
  Y.asString (← Y.robot (← Y.loadFile path) key)

/-- The integer `robot.key` of the file. -/
def robotInt : Except String Int32 := do
  Y.asInt (← Y.robot (← Y.loadFile path) key)

/-- The users of the file. -/
def userNodes : Except String (List Y.Node) := do
  return Y.elements (← Y.index (← Y.loadFile path) "users")

/-- The robot has a name and an address, and every user a name and a password. -/
structure OthersRead : Prop where
  name : ∃ name, Y.robotString path "name" = .ok name
  ip : ∃ ip, Y.robotString path "ip" = .ok ip
  users : ∃ nodes, Y.userNodes path = .ok nodes ∧
    ∀ user ∈ nodes, ∃ info, parseUser Y user = .ok info

end Yaml

section Accepted

/-- A sequence succeeds when both parts do. -/
theorem bind_eq_ok_iff {ε α β : Type} {x : Except ε α} {f : α → Except ε β} {b : β} :
    (x >>= f) = .ok b ↔ ∃ a, x = .ok a ∧ f a = .ok b := by
  cases x with
  | error e => simp [bind, Except.bind]
  | ok a => simp [bind, Except.bind]

/-- A loop succeeds when each of its rounds does. -/
theorem exists_mapM_eq_ok_iff {ε α β : Type} {f : α → Except ε β} {xs : List α} :
    (∃ ys, xs.mapM f = .ok ys) ↔ ∀ x ∈ xs, ∃ y, f x = .ok y := by
  induction xs with
  | nil => simp [pure, Except.pure]
  | cons x xs ih =>
    rw [List.forall_mem_cons, ← ih]
    simp only [List.mapM_cons, bind_eq_ok_iff]
    constructor
    · rintro ⟨-, y, hy, ys, hys, -⟩
      exact ⟨⟨y, hy⟩, ys, hys⟩
    · rintro ⟨⟨y, hy⟩, ys, hys⟩
      exact ⟨y :: ys, y, hy, ys, hys, rfl⟩

variable {Y : Yaml} {path : Bytes} {conf : Conf} {port timeout : Int32}

/-- The file might as well be read again for every value. -/
theorem parseConf_eq : parseConf Y path = do
    let name ← Y.robotString path "name"
    let ip ← Y.robotString path "ip"
    let port ← Y.robotInt path "port"
    let timeout ← Y.robotInt path "timeout"
    let nodes ← Y.userNodes path
    let users ← nodes.mapM (parseUser Y)
    return ⟨⟨name, ip, narrow port, narrow timeout⟩, users⟩ := by
  rw [parseConf, Yaml.robotString, Yaml.robotString, Yaml.robotInt, Yaml.robotInt, Yaml.userNodes]
  cases Y.loadFile path with
  | error what => rfl
  | ok configNode =>
    simp only [bind_assoc]
    rfl

/-- **What is accepted.** The two numbers are stored in sixteen bits. -/
theorem parseConf_eq_ok_iff : parseConf Y path = .ok conf ↔
    ∃ name, Y.robotString path "name" = .ok name ∧ ∃ ip, Y.robotString path "ip" = .ok ip ∧
    ∃ port, Y.robotInt path "port" = .ok port ∧ ∃ timeout, Y.robotInt path "timeout" = .ok timeout ∧
    ∃ nodes, Y.userNodes path = .ok nodes ∧ ∃ users, nodes.mapM (parseUser Y) = .ok users ∧
      ⟨⟨name, ip, narrow port, narrow timeout⟩, users⟩ = conf := by
  simp only [parseConf_eq, bind_eq_ok_iff, pure, Except.pure, Except.ok.injEq]

/-- When a file with two numbers is accepted. -/
theorem parseConf_accepts_iff (hport : Y.robotInt path "port" = .ok port)
    (htimeout : Y.robotInt path "timeout" = .ok timeout) :
    (∃ conf, parseConf Y path = .ok conf) ↔ Y.OthersRead path := by
  simp only [parseConf_eq_ok_iff]
  constructor
  · rintro ⟨conf, name, hname, ip, hip, -, -, -, -, nodes, hnodes, users, husers, -⟩
    exact ⟨⟨name, hname⟩, ⟨ip, hip⟩, nodes, hnodes, exists_mapM_eq_ok_iff.mp ⟨users, husers⟩⟩
  · rintro ⟨⟨name, hname⟩, ⟨ip, hip⟩, nodes, hnodes, hread⟩
    obtain ⟨users, husers⟩ := exists_mapM_eq_ok_iff.mpr hread
    exact ⟨_, name, hname, ip, hip, port, hport, timeout, htimeout, nodes, hnodes, users, husers,
      rfl⟩

/-- What becomes of the two numbers. -/
theorem limits_of_parseConf (hport : Y.robotInt path "port" = .ok port)
    (htimeout : Y.robotInt path "timeout" = .ok timeout) (h : parseConf Y path = .ok conf) :
    conf.robot.port = narrow port ∧ conf.robot.timeout = narrow timeout := by
  obtain ⟨name, -, ip, -, port', hport', timeout', htimeout', -, -, users, -, rfl⟩ :=
    parseConf_eq_ok_iff.mp h
  obtain rfl := Except.ok.inj (hport'.symm.trans hport)
  obtain rfl := Except.ok.inj (htimeout'.symm.trans htimeout)
  exact ⟨rfl, rfl⟩

end Accepted

/-! ### A file -/

/-- A document of nodes. -/
inductive YamlTree
  | undefined
  | scalar (text : Bytes)
  | sequence (elements : List YamlTree)
  | map (entries : List (String × YamlTree))

namespace YamlTree

/-- `operator[]`. -/
def index : YamlTree → String → Except String YamlTree
  | .map entries, key => .ok ((entries.lookup key).getD .undefined)
  | .scalar _, _ => .error "operator[] call on a scalar"
  | .undefined, _ | .sequence _, _ => .ok .undefined

/-- `as<std::string>`. -/
def asString : YamlTree → Except String Bytes
  | .scalar text => .ok text
  | _ => .error "bad conversion"

/-- `as<int>`, of decimal numerals without a sign or a leading zero. -/
def asInt : YamlTree → Except String Int32
  | .scalar text =>
    let n := text.foldl (fun n digit => 10 * n + (digit.toNat - 48)) 0
    let digits := text.all fun digit => 48 ≤ digit && digit ≤ 57
    if !text.isEmpty && digits && n < 2 ^ 31 then .ok (.ofNat n) else .error "bad conversion"
  | _ => .error "bad conversion"

def elements : YamlTree → List YamlTree
  | .sequence elements => elements
  | _ => []

end YamlTree

/-- The file holds the document `root`. -/
def Yaml.ofTree (root : YamlTree) : Yaml where
  Node := YamlTree
  loadFile _ := .ok root
  index := YamlTree.index
  asString := YamlTree.asString
  asInt := YamlTree.asInt
  elements := YamlTree.elements

/-- `config/config.yaml`, with the port `port` and the timeout `timeout`. -/
def confTree (port timeout : Bytes) : YamlTree :=
  .map [
    ("robot", .map [
      ("name", .scalar (ascii "ABB_ULSA")),
      ("ip", .scalar (ascii "host.docker.internal")),
      ("port", .scalar port),
      ("timeout", .scalar timeout)]),
    ("users", .sequence [
      .map [
        ("username", .scalar (ascii "uwunyaguy")),
        ("password", .scalar (ascii "uwunyanichan"))]])]

end RobertMiddleware
