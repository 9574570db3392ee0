import HomeclusterInfra.Library.Shell

/-!
# Writing role.env

The text of DHCP option 224 is a list of fields, each a name, an equals sign
and a value. Three scripts turn it into the lines of role.env:
`pxe-write-role.sh`, which also accepts the text in hexadecimal, the hook of
networkd-dispatcher and the hook of dhcpcd. A character stands for a byte.
-/

set_option autoImplicit false

namespace HomeclusterInfra.RoleEnv

open Shell

/-- The four values that name a node. An empty one is not written. -/
structure Identity where
  overlayId : List Char
  role : List Char
  roles : List Char
  stage : List Char
  deriving DecidableEq

/-- The values of the lines of role.env. -/
structure EnvFile extends Identity where
  raw : List Char
  deriving DecidableEq

/-- One line of role.env, for a value that is not empty. -/
def envLine (key : String) (value : List Char) : List Char :=
  if value = [] then [] else key.toList ++ '=' :: value ++ ['\n']

/-- The text of role.env. -/
def EnvFile.text (env : EnvFile) : List Char :=
  envLine "OVERLAY_ID" env.overlayId ++ envLine "ROLE" env.role ++ envLine "ROLES" env.roles ++
    envLine "STAGE" env.stage ++ envLine "RAW_OPTION_224" env.raw

/-! ## Fields -/

/-- `[A-Za-z_]` -/
def isFieldChar (char : Char) : Bool :=
  char.isAlpha || char = '_'

/-- `[A-Za-z_]+=` at the beginning of a text. -/
def startsField (text : List Char) : Bool :=
  !(text.takeWhile isFieldChar).isEmpty && (text.dropWhile isFieldChar).head? == some '='

/-- `s/,(?=[A-Za-z_]+=)/\n/g` -/
def breakFields : List Char → List Char
  | [] => []
  | char :: rest =>
      (if char = ',' && startsField rest then '\n' else char) :: breakFields rest

/-- One round of the loop over the fields. A field without an equals sign is its
own key and its own value, and is left out. -/
def assignField (identity : Identity) (field : List Char) : Identity :=
  let clean := without [' ', '\t'] field
  let key := beforeFirst '=' clean
  let value := afterFirst '=' clean
  if clean = [] || key = [] || key = value then identity
  else
    let name := String.ofList (key.map Char.toLower)
    if name = "overlay_id" || name = "overlay" then { identity with overlayId := value }
    else if name = "role" then { identity with role := value }
    else if name = "roles" then { identity with roles := value }
    else if name = "stage" || name = "env" || name = "environment" then
      { identity with stage := value }
    else identity

/-- The loop over the fields, and the roles of a node that lists none. -/
def parseFields (defaultStage : List Char) (fields : List (List Char)) : Identity :=
  let identity := fields.foldl assignField ⟨[], [], [], defaultStage⟩
  if identity.roles = [] then { identity with roles := identity.role } else identity

/-! ## pxe-write-role.sh -/

/-- Remove a quote at the end and one at the beginning. -/
def unquote (value : List Char) : List Char :=
  dropHead ['"'] (dropMark '"' value)

/-- Remove the prefixes of hexadecimal numbers and every separator `x`. -/
def normalize (value : List Char) : List Char :=
  without ['X'] (without ['x'] (dropHead "0X".toList (dropHead "0x".toList value)))

/-- `^[0-9A-Fa-f]{2}+$`, of a line. -/
def isHexLine (line : List Char) : Bool :=
  !line.isEmpty && line.length % 2 = 0 && line.all isHexDigit

/-- `\s` in Perl. -/
def isPerlSpace (char : Char) : Bool :=
  char = ' ' || (9 ≤ char.toNat && char.toNat ≤ 13)

/-- What the decoder prints for a line. -/
def decodeLine (line : List Char) : List Char :=
  let compact := line.filter fun char => !isPerlSpace char
  if !compact.isEmpty && compact.all isHexDigit then packHex compact else compact

/-- Decode a value with a line of hexadecimal digits. -/
def decodeHex (value : List Char) : List Char :=
  if (value.splitOn '\n').any isHexLine then
    let decoded := captured ((value.splitOn '\n').flatMap decodeLine)
    if decoded = [] then value else decoded
  else value

/-- The fields of a value as `mapfile` reads them. -/
def mapFields (value : List Char) : List (List Char) :=
  (breakFields value).splitOn '\n'

/-- `pxe-write-role.sh`, given the value of the option; nothing when it removes
role.env. -/
def writeRole (defaultStage value : List Char) : Option EnvFile :=
  if unquote value = [] then none
  else
    let value := decodeHex (normalize (unquote value))
    some ⟨parseFields defaultStage (mapFields value), value⟩

/-! ## The hooks -/

/-- A character that makes a word a pattern for path names. -/
def isGlobChar (char : Char) : Bool :=
  char = '*' || char = '?' || char = '[' || char = '\\'

/-- The path names a word stands for, given the paths that a pattern matches. -/
def expandPaths (paths : List Char → List (List Char)) (word : List Char) : List (List Char) :=
  if word.any isGlobChar && !(paths word).isEmpty then paths word else [word]

/-- The fields of a value as an unquoted `$(…)` splits them. -/
def splitFields (paths : List Char → List (List Char)) (value : List Char) : List (List Char) :=
  (((breakFields value).splitOn '\n').filter (· ≠ [])).flatMap (expandPaths paths)

/-- What the hooks have in common. -/
def hookFields (paths : List Char → List (List Char)) (defaultStage value : List Char) :
    Option EnvFile :=
  if value = [] then none
  else some ⟨parseFields defaultStage (splitFields paths value), value⟩

/-- `50-write-role`, given the value of the option. -/
def dispatcherHook (paths : List Char → List (List Char)) (defaultStage value : List Char) :
    Option EnvFile :=
  hookFields paths defaultStage (unquote value)

/-- `dhcpcd-hook-role`, given the value of the option. -/
def dhcpcdHook (paths : List Char → List (List Char)) (defaultStage value : List Char) :
    Option EnvFile :=
  hookFields paths defaultStage value

end HomeclusterInfra.RoleEnv
