import HomeclusterInfra.Library.Checked
import HomeclusterInfra.Library.Ipv4
import HomeclusterInfra.Library.PyValue
import HomeclusterInfra.Library.UrlSplit

/-!
# Sites of the outside-in monitoring

`prod_outside_in_render.py` reads a private site document, validates it and puts
its targets into the configuration of a Prometheus server: API endpoints and TCP
endpoints that are probed, and node exporters that are scraped.

A target is validated by the parts of its URL, and it is the text itself that is
rendered. A validation that fails is a `ValueError`, here with its message; those
of the URL library have one message.
-/

set_option autoImplicit false

namespace HomeclusterInfra.OutsideIn

open Text Checked Python Ipv4 UrlSplit

/-! ## Names and targets -/

structure Target where
  name : String
  target : String

def isAlnumLower (char : Char) : Bool :=
  char.isLower || char.isDigit

/-- First and last a lower-case letter or a digit, and between them one of these or of some
other characters. -/
def isBounded (others : List Char) (text : List Char) : Bool :=
  text.head?.any isAlnumLower && text.getLast?.any isAlnumLower &&
    text.all fun char => isAlnumLower char || others.contains char

/-- `NAME_RE.fullmatch` -/
def isName (text : List Char) : Bool :=
  isBounded ['-'] text && text.head?.any Char.isLower && 2 ≤ text.length && text.length ≤ 42

/-- `set(fields) == keys` -/
def keysAre (fields : Dict) (keys : List String) : Bool :=
  keys.all (Mapping.has fields) && fields.all fun field => keys.contains field.1

/-- One item of `_names`. -/
def nameItem (key : String) : Value → Except String Target
  | .dict fields => do
      require (keysAre fields ["name", "target"]) (key ++ " items must contain only name and target")
      match Mapping.get fields "name" with
      | some (.str name) => do
          require (isName name.toList) "invalid target name"
          match Mapping.get fields "target" with
          | some (.str target) => do
              require (target.toList.length ≤ 256 && !target.toList.any isSpace) "invalid target"
              return ⟨name, target⟩
          | _ => .error "invalid target"
      | _ => .error "invalid target name"
  | _ => .error (key ++ " items must contain only name and target")

/-- `_names` -/
def names (items : Value) (key : String) (maximum : Nat) : Except String (List Target) :=
  let message := key ++ " must be a list of at most " ++ String.ofList (natText maximum) ++ " entries"
  match items with
  | .list items => do
      require (items.length ≤ maximum) message
      require (!(key = "api_targets" && items.isEmpty))
        "at least one staging API /readyz target is required"
      items.mapM (nameItem key)
  | _ => .error message

/-! ## Hosts -/

/-- The address is a loopback, link-local, multicast or unspecified one. -/
def isUnsafeAddress (address : Nat) : Bool :=
  (cidr 127 0 0 0 8).Contains address || (cidr 169 254 0 0 16).Contains address ||
    (cidr 224 0 0 0 4).Contains address || address = 0

/-- `_valid_host`. An IPv6 address is no host, and no DNS name either. -/
def validHost (host : List Char) : Bool :=
  !host.isEmpty && host.length ≤ 253 &&
    match parseAddress host with
    | some address => !isUnsafeAddress address
    | none => isBounded ['.', '-'] host && host.contains '.' &&
        !(host.zip host.tail).contains ('.', '.')

section Validation

variable (rules : Rules)

/-- The parts of a URL. -/
def parsed (text : List Char) : Except String Parts :=
  match urlsplit rules text with
  | some parts => .ok parts
  | none => .error "invalid URL"

/-- Reading the port of a URL. -/
def portOf (parts : Parts) : Except String (Option Nat) :=
  match port parts.netloc with
  | some number => .ok number
  | none => .error "invalid URL"

/-- The check of one API target. -/
def checkApi (target : String) : Except String Unit := do
  let message := "API targets must be HTTPS /readyz on an explicit port without credentials, " ++
    "query or fragment"
  let url ← parsed rules target.toList
  require (url.scheme = "https".toList && validHost (hostname rules url.netloc) &&
    !hasUsername url.netloc && !hasPassword url.netloc && url.query.isEmpty &&
    url.fragment.isEmpty && url.path = "/readyz".toList && !url.netloc.isEmpty) message
  let number ← portOf url
  require (number = some 443 || number = some 6443) message

/-- The check of one TCP target. -/
def checkTcp (target : String) : Except String Unit := do
  let message := "TCP target must be a host:port"
  let url ← parsed rules ("tcp://".toList ++ target.toList)
  require (validHost (hostname rules url.netloc)) message
  let number ← portOf url
  require (number.any (· ≠ 0) && !hasUsername url.netloc && !hasPassword url.netloc &&
    url.path.isEmpty && url.query.isEmpty && url.fragment.isEmpty && target.toList.contains ':' &&
    number = some 9100) message

/-- The check of one metrics target. -/
def checkMetrics (target : String) : Except String Unit := do
  let message := "metrics target must be a host:9100 endpoint"
  let url ← parsed rules ("tcp://".toList ++ target.toList)
  require (validHost (hostname rules url.netloc)) message
  let number ← portOf url
  require (number = some 9100 && !hasUsername url.netloc && !hasPassword url.netloc &&
    url.path.isEmpty && url.query.isEmpty && url.fragment.isEmpty &&
    url.netloc = target.toList && target.toList.contains ':') message

/-- The validation of `openwrt_metrics_target`. -/
def openwrtTarget (value : Value) : Except String Target := do
  let entry ← nameItem "openwrt_metrics_target" value
  let authority ← parsed rules ("tcp://".toList ++ entry.target.toList)
  match parseAddress (hostname rules authority.netloc) with
  | none => .error "OpenWrt metrics target must use an IPv4 address"
  | some address => do
      let message := "OpenWrt metrics target must be IPv4:9100"
      require (validHost (addressText address)) message
      let number ← portOf authority
      require (number = some 9100 && authority.netloc = entry.target.toList &&
        authority.path.isEmpty && authority.query.isEmpty && authority.fragment.isEmpty) message
      return entry

/-- `[a-z0-9](?:[a-z0-9-]{0,61}[a-z0-9])?` -/
def isLabel (text : List Char) : Bool :=
  isBounded ['-'] text && text.length ≤ 63

/-- The egress address of the production target, where one is supplied. -/
def egressAddress (address : Option Nat) : Option Value → Except String (Option String)
  | none => return none
  | some (.str explicit) =>
      match parseAddress explicit.toList with
      | none => .error "prod egress address must be canonical IPv4"
      | some egress => do
          require (addressText egress = explicit.toList && validHost (addressText egress) &&
            address.all (· = egress)) "prod egress address must match an IPv4 target and be safe"
          return some explicit
  | some _ => .error "prod egress address must be canonical IPv4"

/-- The validation of `prod_metrics_target`, with its egress address. -/
def prodTarget : Value → Except String (Target × Option String)
  | .dict fields => do
      require (["name", "target"].all (Mapping.has fields) &&
          fields.all fun field => ["name", "target", "address"].contains field.1)
        "prod metrics target requires name, target and optional address"
      let item := fun key => (key, (Mapping.get fields key).getD .none)
      let entry ← nameItem "prod_metrics_target" (.dict [item "name", item "target"])
      let authority ← parsed rules ("tcp://".toList ++ entry.target.toList)
      let host := hostname rules authority.netloc
      let message := "prod metrics target must use a safe host:9100 authority"
      require (validHost host) message
      let number ← portOf authority
      require (number = some 9100 && !hasUsername authority.netloc &&
        authority.netloc = entry.target.toList && authority.path.isEmpty &&
        authority.query.isEmpty && authority.fragment.isEmpty) message
      require ((parseAddress host).isSome ||
          !(host.all fun char => char.isDigit || char = '.') &&
            (host.splitOn '.').all isLabel && Mapping.has fields "address")
        "prod DNS target needs valid labels and an explicit IPv4 address"
      let address ← egressAddress (parseAddress host) (Mapping.get fields "address")
      return (entry, address)
  | _ => .error "prod metrics target requires name, target and optional address"

/-- The texts are different ones. -/
def distinct (texts : List String) : Bool :=
  texts.Nodup

/-- One of the egress networks. -/
def egressCidr : Value → Except String String
  | .str text =>
      match parseNetwork true text.toList with
      | none => .error "invalid egress CIDR"
      | some network => do
          require (network.level ≤ 8) "egress CIDR must be IPv4 with prefix length >= 24"
          require (!bothEnds network (cidr 127 0 0 0 8) && !bothEnds network (cidr 169 254 0 0 16) &&
            !isMulticast network && !bothEnds network (cidr 0 0 0 0 32)) "unsafe egress CIDR"
          return String.ofList (networkText network)
  | _ => .error "egress CIDR must be a string"

/-- The egress networks. -/
def egressCidrs : Value → Except String (List String)
  | .list values => do
      require (!values.isEmpty && values.length ≤ 12)
        "egress_cidrs must contain 1-12 explicitly scoped IPv4 CIDRs"
      let cidrs ← values.mapM egressCidr
      require (distinct cidrs) "duplicate egress CIDR"
      return cidrs
  | _ => .error "egress_cidrs must contain 1-12 explicitly scoped IPv4 CIDRs"

/-- The name of the secret with the API's certificate. -/
def apiCaSecret : Value → Except String (Option String)
  | .none => return none
  | .str secret => do
      require (isName secret.toList) "api_ca_secret must be null or Kubernetes DNS name"
      return some secret
  | _ => .error "api_ca_secret must be null or Kubernetes DNS name"

/-- A value that is there and not null. -/
def given (fields : Dict) (key : String) : Option Value :=
  match Mapping.get fields key with
  | none | some .none => none
  | some value => some value

structure Site where
  api : List Target
  tcp : List Target
  metrics : List Target
  openwrt : Option Target
  prod : Option (Target × Option String)
  egressCidrs : List String
  apiCaSecret : Option String

/-- The other targets of the production one. -/
def checkProd (metrics : List Target) (openwrt : Option Target) (entry : Target) :
    Except String Unit := do
  require ((metrics ++ openwrt.toList).all fun other =>
      other.name ≠ entry.name && other.target ≠ entry.target)
    "prod target must differ from staging and OpenWrt targets"
  require (metrics.length = 4) "kernel build monitoring requires four staging targets"

/-- `validate_site` -/
def validateSite : Value → Except String Site
  | .dict document => do
      let required := ["api_targets", "tcp_targets", "egress_cidrs", "api_ca_secret"]
      let allowed := required ++ ["metrics_targets", "openwrt_metrics_target",
        "prod_metrics_target"]
      let at_key := fun key => (Mapping.get document key).getD .none
      require (required.all (Mapping.has document) && document.all fun field => allowed.contains field.1)
        "site input must declare four O1 keys and optional metrics_targets"
      let api ← names (at_key "api_targets") "api_targets" 4
      let tcp ← names (at_key "tcp_targets") "tcp_targets" 8
      let metrics ← names ((Mapping.get document "metrics_targets").getD (.list [])) "metrics_targets" 4
      let openwrt ← (given document "openwrt_metrics_target").mapM (openwrtTarget rules)
      require (distinct (metrics.map Target.name)) "duplicate metrics target name"
      require (distinct (metrics.map Target.target)) "duplicate metrics endpoint"
      require (openwrt.all fun router => metrics.all fun other =>
          other.name ≠ router.name && other.target ≠ router.target)
        "OpenWrt metrics target must differ from staging metrics targets"
      let prod ← (given document "prod_metrics_target").mapM (prodTarget rules)
      prod.forM fun entry => checkProd metrics openwrt entry.1
      require (distinct ((api ++ tcp).map Target.name)) "target names must be globally unique"
      api.forM fun entry => checkApi rules entry.target
      tcp.forM fun entry => checkTcp rules entry.target
      metrics.forM fun entry => checkMetrics rules entry.target
      let cidrs ← egressCidrs (at_key "egress_cidrs")
      let secret ← apiCaSecret (at_key "api_ca_secret")
      return ⟨api, tcp, metrics, openwrt, prod, cidrs, secret⟩
  | _ => .error "site input must declare four O1 keys and optional metrics_targets"

end Validation

/-! ## The configuration -/

/-- The scrape jobs of `build_manifest`, each with its targets. -/
def scrapeJobs (site : Site) : List (String × List String) :=
  let unlessEmpty := fun (job : String) (targets : List Target) =>
    if targets.isEmpty then [] else [(job, targets.map Target.target)]
  [("prod-prometheus-self", ["127.0.0.1:9090"]), ("staging-api", site.api.map Target.target)] ++
    unlessEmpty "staging-tcp" site.tcp ++ unlessEmpty "staging-node-exporter" site.metrics ++
    unlessEmpty "prod-node-exporter" (site.prod.toList.map Prod.fst) ++
    unlessEmpty "openwrt-node-exporter" site.openwrt.toList

end HomeclusterInfra.OutsideIn
