import ErrorCore.Security.Encryption
import ErrorCore.Foundation.Text

/-!
# Configuration

`src/config.ts` as far as it decides about secrets and the dead-letter store:
`resolveConfig`, `resolveSecrets` and `getTransportAuthorization`. The checks of
the other options throw or change nothing here and are left out.

Secrets are no part of a resolved configuration. A second function reads them
from the user's configuration and the environment.
-/

namespace ErrorCore

/-- The variables of the process that the functions below read. -/
structure Environment where
  ERRORCORE_DEK : Option Text := none
  ERRORCORE_MAC_KEY : Option Text := none
  ERRORCORE_API_KEY : Option Text := none
  isProduction : Bool := false
  detectServerlessEnvironment : Bool := false
  getSdkVersion : Text := "unknown"

inductive TransportConfig
  | stdout
  | file
  | http (apiKey authorization : Option Text)
  | webhook (secret : Option Text)
  deriving DecidableEq, Repr

/-- What a call of `encryptionKeyCallback` does. -/
inductive CallbackResult
  | text (value : Text)
  | buffer (value : Bytes)
  | promise
  | throws (error : Text)
  deriving DecidableEq, Repr

structure SDKConfig where
  encryptionKey : Option Text := none
  macKey : Option Text := none
  encryptionKeyCallback : Option CallbackResult := none
  previousEncryptionKeys : List Text := []
  previousTransportAuthorizations : List Text := []
  transport : Option TransportConfig := none
  deadLetterPath : Option Text := none
  deadLetterMaxBytes : Option Nat := none
  deadLetterMaxBackups : Option Nat := none
  maxTotalPackageSize : Option Nat := none
  serverless : Option Bool := none
  allowUnencrypted : Option Bool := none
  allowProductionPlaintext : Option Bool := none

structure ResolvedSecrets where
  encryptionKey : Option Text
  macKey : Option Text
  encryptionKeyCallback : Option CallbackResult
  previousEncryptionKeys : List Text
  previousTransportAuthorizations : List Text
  deriving DecidableEq, Repr

/-- `/^[0-9a-f]\x7b64\x7d$/i`. -/
def isHexKey (key : Text) : Bool := key.length = 64 && Bytes.isHex key

/-- `3.5 <= hexKeyEntropy(key)` for a key of 64 digits. Multiplied by 64, the entropy is
384 less the sum of `c * log2(c)` over the counts `c` of the characters. -/
def hasKeyEntropy (key : Text) : Bool :=
  let lower := key.map Char.toLower
  (lower.eraseDups.foldl (fun product c => product * lower.count c ^ lower.count c) 1) ≤ 2 ^ 160

def generateKeyHint : Text :=
  "node -e \"process.stdout.write(require('crypto').randomBytes(32).toString('hex') + '\\n')\""

/-- A variable that is set to the empty string counts as absent. -/
def nonEmpty (value : Option Text) : Option Text := value.filter (· ≠ [])

def isApiKeyChar (c : Char) : Bool := c.isAlphanum || c = '_' || c = '-'

/-- `/^ec_live_[A-Za-z0-9_-]\x7b32,128\x7d$/`. -/
def isApiKey (apiKey : Text) : Bool :=
  apiKey.take 8 = ("ec_live_" : Text) && (apiKey.drop 8).all isApiKeyChar &&
    32 ≤ (apiKey.drop 8).length && (apiKey.drop 8).length ≤ 128

def getTransportAuthorization (env : Environment) :
    Option TransportConfig → Except Text (Option Text)
  | some (.http apiKey authorization) =>
      match apiKey, authorization with
      | some _, some _ =>
          .error ("HTTP transport authentication is ambiguous: configure transport.apiKey or " ++
            "transport.authorization, not both." : String)
      | none, some authorization =>
          if Text.trim authorization = [] then
            .error "transport.authorization must be a non-empty string for HTTP transport."
          else
            .ok (some authorization)
      | apiKey, none =>
          let source : Text := if apiKey.isSome then "transport.apiKey" else "ERRORCORE_API_KEY"
          match apiKey.or env.ERRORCORE_API_KEY with
          | none =>
              .error ("HTTP transport authentication is required. Set transport.apiKey " ++
                "(preferred), ERRORCORE_API_KEY, or transport.authorization for a legacy/custom " ++
                "collector." : String)
          | some apiKey =>
              if isApiKey apiKey then .ok (some (("Bearer " : Text) ++ apiKey))
              else
                .error (source ++ (" must match /^ec_live_[A-Za-z0-9_-]\x7b32,128\x7d$/. Generate" ++
                  " or copy a valid ErrorCore ingestion API key." : String).toList)
  | _ => .ok none

/-- The check of one entry of `previousEncryptionKeys`. -/
def checkPreviousKey (encryptionKey : Option Text) (prev : Text) : Except Text Unit := do
  if ¬ isHexKey prev then
    throw ("previousEncryptionKeys entries must each be a 64-character hex string (32 bytes)" :
      Text)
  if ¬ hasKeyEntropy prev then
    throw ("previousEncryptionKeys entry has insufficient character diversity" : Text)
  if encryptionKey = some prev then
    throw ("previousEncryptionKeys must not include the primary key (encryptionKey)" : Text)

def resolveSecrets (env : Environment) (userConfig : SDKConfig) : Except Text ResolvedSecrets := do
  let resolvedEncryptionKey := userConfig.encryptionKey.or (nonEmpty env.ERRORCORE_DEK)
  if ¬ resolvedEncryptionKey.all isHexKey then
    throw (("encryptionKey must be a 64-character hex string (32 bytes). Generate one with: " :
      Text) ++ generateKeyHint)
  let resolvedMacKey := userConfig.macKey.or (nonEmpty env.ERRORCORE_MAC_KEY)
  if ¬ resolvedMacKey.all isHexKey then
    throw (("macKey must be a 64-character hex string (32 bytes). Generate one with: " : Text) ++
      generateKeyHint)
  if ¬ resolvedEncryptionKey.all hasKeyEntropy then
    throw (("encryptionKey has insufficient character diversity (all-zeros, repeated " ++
      "characters, or trivially predictable). Generate a random key with: " : String).toList ++
      generateKeyHint)
  if 5 < userConfig.previousEncryptionKeys.length then
    throw ("previousEncryptionKeys must contain at most 5 entries" : Text)
  userConfig.previousEncryptionKeys.forM (checkPreviousKey userConfig.encryptionKey)
  return {
    encryptionKey := resolvedEncryptionKey
    macKey := resolvedMacKey
    encryptionKeyCallback := userConfig.encryptionKeyCallback
    previousEncryptionKeys := userConfig.previousEncryptionKeys
    previousTransportAuthorizations := userConfig.previousTransportAuthorizations }

/-- Where the dead-letter file is. -/
inductive DeadLetterPath
  | configured (path : Text)
  | besideTransportFile
  | inWorkingDirectory
  deriving DecidableEq, Repr

def resolveDeadLetterPath (userConfig : SDKConfig) (transport : TransportConfig) :
    Option DeadLetterPath :=
  match userConfig.deadLetterPath with
  | some path => some (.configured path)
  | none =>
      match transport with
      | .file => some .besideTransportFile
      | .http _ _ | .webhook _ => some .inWorkingDirectory
      | .stdout => none

/-- A resolved configuration. `resolveConfig` sets none of the last four properties, which a
program that does not check their types can still read. -/
structure ResolvedConfig where
  deadLetterPath : Option DeadLetterPath
  deadLetterMaxBytes : Nat
  deadLetterMaxBackups : Nat
  maxTotalPackageSize : Nat
  encryptionKey : Option Text := none
  macKey : Option Text := none
  previousEncryptionKeys : Option (List Text) := none
  previousTransportAuthorizations : Option (List Text) := none

def DEFAULT_DEAD_LETTER_MAX_BYTES : Nat := 50 * 1024 * 1024

def DEFAULT_DEAD_LETTER_MAX_BACKUPS : Nat := 5

def assertPositiveInteger (value : Nat) (fieldName : Text) : Except Text Unit :=
  if 0 < value then .ok () else .error (fieldName ++ (" must be a positive integer" : Text))

def transportRequiredError : Text :=
  ("transport must be configured explicitly in production.\n" ++
    "Set NODE_ENV to \"development\" for automatic stdout transport, or configure one:\n" ++
    "  transport: \x7b type: 'stdout' \x7d          // local development\n" ++
    "  transport: \x7b type: 'file', path: ... \x7d  // controlled environments\n" ++
    "  transport: \x7b type: 'http', url: ... \x7d   // production collectors" : String)

def productionPlaintextError : Text :=
  ("EC_PRODUCTION_PLAINTEXT_BYPASS: Refusing to start in production with HTTP transport, " ++
    "allowUnencrypted: true, and no encryption key (config, ERRORCORE_DEK, or " ++
    "encryptionKeyCallback). Either configure a DEK, or set allowProductionPlaintext: true to " ++
    "acknowledge plaintext-on-the-wire in production (not recommended)." : String)

/-- The transport, standard output by default outside of production. -/
def resolveTransport (env : Environment) (userConfig : SDKConfig) : Except Text TransportConfig :=
  match userConfig.transport with
  | some transport => .ok transport
  | none => if env.isProduction then .error transportRequiredError else .ok .stdout

def TransportConfig.isHttp : TransportConfig → Bool
  | http _ _ => true
  | _ => false

/-- The guard against plaintext in production. -/
def refuseProductionPlaintext (env : Environment) (userConfig : SDKConfig)
    (transport : TransportConfig) (secrets : ResolvedSecrets) : Except Text Unit :=
  let allowUnencrypted := userConfig.allowUnencrypted.getD (!env.isProduction)
  let hasResolvableKey := secrets.encryptionKey.isSome || userConfig.encryptionKeyCallback.isSome
  if env.isProduction && transport.isHttp && allowUnencrypted && !hasResolvableKey &&
      !userConfig.allowProductionPlaintext.getD false then
    .error productionPlaintextError
  else
    .ok ()

def resolveConfig (env : Environment) (userConfig : SDKConfig) : Except Text ResolvedConfig := do
  let deadLetterMaxBytes := userConfig.deadLetterMaxBytes.getD DEFAULT_DEAD_LETTER_MAX_BYTES
  assertPositiveInteger deadLetterMaxBytes "deadLetterMaxBytes"
  let transport ← resolveTransport env userConfig
  let secrets ← resolveSecrets env userConfig
  let _ ← getTransportAuthorization env (some transport)
  refuseProductionPlaintext env userConfig transport secrets
  let maxTotalPackageSize := userConfig.maxTotalPackageSize.getD 5242880
  assertPositiveInteger maxTotalPackageSize "serialization.maxTotalPackageSize"
  let serverless := userConfig.serverless.getD env.detectServerlessEnvironment
  return {
    deadLetterPath :=
      if serverless && userConfig.deadLetterPath.isNone then none
      else resolveDeadLetterPath userConfig transport
    deadLetterMaxBytes
    deadLetterMaxBackups :=
      userConfig.deadLetterMaxBackups.getD DEFAULT_DEAD_LETTER_MAX_BACKUPS
    maxTotalPackageSize }

end ErrorCore
