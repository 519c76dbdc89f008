import KeyLifecycle.Key.Jwk
import KeyLifecycle.Key.Params
import KeyLifecycle.Text.Blank

/-! What a caller says about a new key pair. Its public key is supplied, as a JWK or as PEM text,
or the whole pair is to be generated; a descriptor has to choose exactly one of these. -/
namespace KeyLifecycle

structure Descriptor where
  keyId : String
  secretAlias : String
  publicJwk : Option Jwk := none
  publicPem : Option String := none
  params : Option Params := none
  useDuration : Option UInt64 := none
deriving DecidableEq

inductive Material where
  | supplied (publicKey : String)
  | generated (params : Params)
deriving DecidableEq

namespace Descriptor
open Json

inductive Flaw where
  | blankKeyId
  | blankAlias
  | privateJwk
  | noMaterial
  | twoPublicKeys
  | keyAndParams
deriving DecidableEq

def Flaw.code : Flaw → Code
  | privateJwk => .invalidKey
  | _ => .invalidDescriptor

def Flaw.message : Flaw → String
  | blankKeyId => "key descriptor has no key ID"
  | blankAlias => "key descriptor has no private key alias"
  | privateJwk => "supplied public key JWK contains a private key"
  | noMaterial => "key descriptor must contain either a public key or key generator params"
  | twoPublicKeys => "key descriptor must not contain both a public key JWK and PEM"
  | keyAndParams => "key descriptor must not contain both a public key and key generator params"

def Flaw.toError (f : Flaw) : Error := .detailed f.code f.message

def validate (d : Descriptor) : Except Flaw Material :=
  if Text.isBlankText d.keyId then .error .blankKeyId
  else if Text.isBlankText d.secretAlias then .error .blankAlias
  else match d.publicJwk, d.publicPem, d.params with
    | none, none, some p => .ok (.generated p)
    | some k, none, none => if k.isPrivate then .error .privateJwk else .ok (.supplied k.toJson)
    | none, some pem, none => .ok (.supplied pem)
    | none, none, none => .error .noMaterial
    | some _, some _, _ => .error .twoPublicKeys
    | _, _, some _ => .error .keyAndParams

def fields : Fields :=
  .required "keyId" (.leaf .text) <| .required "privateKeyAlias" (.leaf .text) <|
  .optional "publicKeyJwk" Jwk.format.shape <| .optional "publicKeyPem" (.leaf .text) <|
  .optional "keyGeneratorParams" Params.format.shape <| .optional "useDuration" (.leaf .count) .done

def format : Format Descriptor where
  shape := .object "KeyDescriptor" false fields
  toValue d := (d.keyId, d.secretAlias, d.publicJwk.map Jwk.format.toValue, d.publicPem,
    d.params.map Params.format.toValue, d.useDuration, ())
  ofValue := fun (keyId, secretAlias, jwk, pem, params, useDuration, _) =>
    ⟨keyId, secretAlias, jwk.map Jwk.format.ofValue, pem, params.map Params.format.ofValue,
      useDuration⟩
  ofValue_toValue d := by
    rcases d with ⟨_, _, jwk, _, params, _⟩
    cases jwk <;> cases params <;> rfl

def toJson (d : Descriptor) : String := format.write d

end Descriptor
end KeyLifecycle
