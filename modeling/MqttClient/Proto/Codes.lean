import Mathlib.Data.List.Nodup

/-! Protocol codes and errors of the MQTT codec. -/

namespace MqttClient.Proto

abbrev Bytes := List UInt8

inductive ProtocolVersion where
  | v3
  | v5
  deriving DecidableEq, Repr

namespace ProtocolVersion

def isV5 : ProtocolVersion → Bool
  | .v3 => false
  | .v5 => true

def toU8 : ProtocolVersion → UInt8
  | .v3 => 0x04
  | .v5 => 0x05

end ProtocolVersion

/-- Errors of the decoder. -/
inductive DecodeError where
  | connectReservedSet
  | connectZeroLengthIdWithExistingSession
  | emptyFilter
  | emptyTopic
  | incompletePacket
  | invalidByteStr (reason : String)
  | invalidFilter (text : Bytes)
  | invalidTopic (text : Bytes)
  | noTopics
  | publishDupAtMostOnce
  | trailingGarbage
  | unrecognizedConnAckFlags (flags : UInt8)
  | unrecognizedPacket (packetType flags : UInt8) (remainingLength : Nat)
  | unrecognizedProtocolName (name : Bytes)
  | unrecognizedProtocolVersion (version : UInt8)
  | unrecognizedQoS (code : UInt8)
  | varintTooHigh
  | willPropertiesFlagsSetButNotWillFlag
  | zeroPacketIdentifier
  | connectPasswordFlagSetButNotUsernameFlag
  | duplicateProperty (name : String)
  | missingRequiredProperty (name : String)
  | unexpectedProperty
  | unrecognizedPropertyIdentifier (identifier : UInt8)
  | invalidMaximumPacketSize (value : UInt32)
  | invalidReceiveMaximum (value : UInt16)
  | invalidSubscriptionIdentifier (value : UInt32)
  | invalidTopicAlias (value : UInt16)
  | unrecognizedAuthenticateReasonCode (code : UInt8)
  | unrecognizedConnectReasonCode (code : UInt8)
  | unrecognizedConnectReturnCode (code : UInt8)
  | unrecognizedDisconnectReasonCode (code : UInt8)
  | unrecognizedMaximumQoS (code : UInt8)
  | unrecognizedPayloadFormatIndicator (code : UInt8)
  | unrecognizedPubAckReasonCode (code : UInt8)
  | unrecognizedPubCompReasonCode (code : UInt8)
  | unrecognizedPubRecReasonCode (code : UInt8)
  | unrecognizedPubRelReasonCode (code : UInt8)
  | unrecognizedRequestProblemInformation (code : UInt8)
  | unrecognizedRequestResponseInformation (code : UInt8)
  | unrecognizedRetainAvailable (code : UInt8)
  | unrecognizedRetainHandling (code : UInt8)
  | unrecognizedSharedSubscriptionAvailable (code : UInt8)
  | unrecognizedSubscribeReasonCode (code : UInt8)
  | unrecognizedSubscriptionIdentifiersAvailable (code : UInt8)
  | unrecognizedUnsubAckReasonCode (code : UInt8)
  | unrecognizedWildcardSubscriptionAvailable (code : UInt8)
  | subscriptionOptionsReservedSet
  | noLocalWithSharedSubscription
  deriving DecidableEq, Repr

/-- An enumeration with a one-byte wire code. `all` lists every variant once and
distinct variants have distinct codes, so a code determines its variant. -/
class U8Code (α : Type) where
  toU8 : α → UInt8
  all : List α
  unrecognized : UInt8 → DecodeError
  complete : ∀ code : α, code ∈ all
  distinct : (all.map toU8).Nodup

namespace U8Code

/-- The variant with this code, or the enumeration's own error. -/
def tryFrom (α : Type) [U8Code α] (code : UInt8) : Except DecodeError α :=
  match (all : List α).find? (fun variant => toU8 variant == code) with
  | some variant => .ok variant
  | none => .error (unrecognized α code)

theorem toU8_injective [U8Code α] {left right : α} (same : toU8 left = toU8 right) :
    left = right :=
  List.inj_on_of_nodup_map distinct (complete left) (complete right) same

theorem tryFrom_eq_ok_iff [U8Code α] {code : UInt8} {variant : α} :
    tryFrom α code = .ok variant ↔ toU8 variant = code := by
  unfold tryFrom
  constructor
  · intro decoded
    cases located : (all : List α).find? (fun candidate => toU8 candidate == code) with
    | none => simp [located] at decoded
    | some found =>
      have matched : toU8 found = code := by simpa using List.find?_some located
      have same : found = variant := by simpa [located] using decoded
      exact same ▸ matched
  · intro coded
    cases located : (all : List α).find? (fun candidate => toU8 candidate == code) with
    | none =>
      have missing := List.find?_eq_none.mp located variant (complete variant)
      simp [coded] at missing
    | some found =>
      have matched : toU8 found = code := by simpa using List.find?_some located
      have same : found = variant := toU8_injective (matched.trans coded.symm)
      simp [same]

@[simp] theorem tryFrom_toU8 [U8Code α] (variant : α) :
    tryFrom α (toU8 variant) = .ok variant :=
  tryFrom_eq_ok_iff.mpr rfl

end U8Code

inductive QoS where
  | atMostOnce
  | atLeastOnce
  | exactlyOnce
  deriving DecidableEq, Repr

instance : U8Code QoS where
  toU8
    | .atMostOnce => 0x00
    | .atLeastOnce => 0x01
    | .exactlyOnce => 0x02
  all := [.atMostOnce, .atLeastOnce, .exactlyOnce]
  unrecognized := .unrecognizedQoS
  complete := by intro code; cases code <;> decide
  distinct := by decide

inductive ConnectionRefusedReason where
  | unspecifiedError
  | malformedPacket
  | protocolError
  | implementationSpecificError
  | unsupportedProtocolVersion
  | clientIdentifierNotValid
  | badUserNameOrPassword
  | notAuthorized
  | serverUnavailable
  | serverBusy
  | banned
  | badAuthenticationMethod
  | topicNameInvalid
  | packetTooLarge
  | quotaExceeded
  | payloadFormatInvalid
  | retainNotSupported
  | qosNotSupported
  | useAnotherServer
  | serverMoved
  | connectionRateExceeded
  deriving DecidableEq, Repr

instance : U8Code ConnectionRefusedReason where
  toU8
    | .unspecifiedError => 0x80
    | .malformedPacket => 0x81
    | .protocolError => 0x82
    | .implementationSpecificError => 0x83
    | .unsupportedProtocolVersion => 0x84
    | .clientIdentifierNotValid => 0x85
    | .badUserNameOrPassword => 0x86
    | .notAuthorized => 0x87
    | .serverUnavailable => 0x88
    | .serverBusy => 0x89
    | .banned => 0x8A
    | .badAuthenticationMethod => 0x8C
    | .topicNameInvalid => 0x90
    | .packetTooLarge => 0x95
    | .quotaExceeded => 0x97
    | .payloadFormatInvalid => 0x99
    | .retainNotSupported => 0x9A
    | .qosNotSupported => 0x9B
    | .useAnotherServer => 0x9C
    | .serverMoved => 0x9D
    | .connectionRateExceeded => 0x9F
  all := [.unspecifiedError, .malformedPacket, .protocolError, .implementationSpecificError,
    .unsupportedProtocolVersion, .clientIdentifierNotValid, .badUserNameOrPassword,
    .notAuthorized, .serverUnavailable, .serverBusy, .banned, .badAuthenticationMethod,
    .topicNameInvalid, .packetTooLarge, .quotaExceeded, .payloadFormatInvalid,
    .retainNotSupported, .qosNotSupported, .useAnotherServer, .serverMoved,
    .connectionRateExceeded]
  unrecognized := .unrecognizedConnectReasonCode
  complete := by intro code; cases code <;> decide
  distinct := by decide +kernel

inductive PubAckReasonCode where
  | success
  | noMatchingSubscribers
  | unspecifiedError
  | implementationSpecificError
  | notAuthorized
  | topicNameInvalid
  | packetIdentifierInUse
  | quotaExceeded
  | payloadFormatInvalid
  deriving DecidableEq, Repr

instance : U8Code PubAckReasonCode where
  toU8
    | .success => 0x00
    | .noMatchingSubscribers => 0x10
    | .unspecifiedError => 0x80
    | .implementationSpecificError => 0x83
    | .notAuthorized => 0x87
    | .topicNameInvalid => 0x90
    | .packetIdentifierInUse => 0x91
    | .quotaExceeded => 0x97
    | .payloadFormatInvalid => 0x99
  all := [.success, .noMatchingSubscribers, .unspecifiedError, .implementationSpecificError,
    .notAuthorized, .topicNameInvalid, .packetIdentifierInUse, .quotaExceeded,
    .payloadFormatInvalid]
  unrecognized := .unrecognizedPubAckReasonCode
  complete := by intro code; cases code <;> decide
  distinct := by decide +kernel

def PubAckReasonCode.isSuccess : PubAckReasonCode → Bool
  | .success | .noMatchingSubscribers => true
  | _ => false

inductive PubRecReasonCode where
  | success
  | noMatchingSubscribers
  | unspecifiedError
  | implementationSpecificError
  | notAuthorized
  | topicNameInvalid
  | packetIdentifierInUse
  | quotaExceeded
  | payloadFormatInvalid
  deriving DecidableEq, Repr

instance : U8Code PubRecReasonCode where
  toU8
    | .success => 0x00
    | .noMatchingSubscribers => 0x10
    | .unspecifiedError => 0x80
    | .implementationSpecificError => 0x83
    | .notAuthorized => 0x87
    | .topicNameInvalid => 0x90
    | .packetIdentifierInUse => 0x91
    | .quotaExceeded => 0x97
    | .payloadFormatInvalid => 0x99
  all := [.success, .noMatchingSubscribers, .unspecifiedError, .implementationSpecificError,
    .notAuthorized, .topicNameInvalid, .packetIdentifierInUse, .quotaExceeded,
    .payloadFormatInvalid]
  unrecognized := .unrecognizedPubRecReasonCode
  complete := by intro code; cases code <;> decide
  distinct := by decide +kernel

def PubRecReasonCode.isSuccess : PubRecReasonCode → Bool
  | .success | .noMatchingSubscribers => true
  | _ => false

inductive PubRelReasonCode where
  | success
  | packetIdentifierNotFound
  deriving DecidableEq, Repr

instance : U8Code PubRelReasonCode where
  toU8
    | .success => 0x00
    | .packetIdentifierNotFound => 0x92
  all := [.success, .packetIdentifierNotFound]
  unrecognized := .unrecognizedPubRelReasonCode
  complete := by intro code; cases code <;> decide
  distinct := by decide

inductive PubCompReasonCode where
  | success
  | packetIdentifierNotFound
  deriving DecidableEq, Repr

instance : U8Code PubCompReasonCode where
  toU8
    | .success => 0x00
    | .packetIdentifierNotFound => 0x92
  all := [.success, .packetIdentifierNotFound]
  unrecognized := .unrecognizedPubCompReasonCode
  complete := by intro code; cases code <;> decide
  distinct := by decide

inductive SubscribeReasonCode where
  | grantedQoS0
  | grantedQoS1
  | grantedQoS2
  | unspecifiedError
  | implementationSpecificError
  | notAuthorized
  | topicFilterInvalid
  | packetIdentifierInUse
  | quotaExceeded
  | sharedSubscriptionsNotSupported
  | subscriptionIdentifiersNotSupported
  | wildcardSubscriptionsNotSupported
  deriving DecidableEq, Repr

instance : U8Code SubscribeReasonCode where
  toU8
    | .grantedQoS0 => 0x00
    | .grantedQoS1 => 0x01
    | .grantedQoS2 => 0x02
    | .unspecifiedError => 0x80
    | .implementationSpecificError => 0x83
    | .notAuthorized => 0x87
    | .topicFilterInvalid => 0x8F
    | .packetIdentifierInUse => 0x91
    | .quotaExceeded => 0x97
    | .sharedSubscriptionsNotSupported => 0x9E
    | .subscriptionIdentifiersNotSupported => 0xA1
    | .wildcardSubscriptionsNotSupported => 0xA2
  all := [.grantedQoS0, .grantedQoS1, .grantedQoS2, .unspecifiedError,
    .implementationSpecificError, .notAuthorized, .topicFilterInvalid, .packetIdentifierInUse,
    .quotaExceeded, .sharedSubscriptionsNotSupported, .subscriptionIdentifiersNotSupported,
    .wildcardSubscriptionsNotSupported]
  unrecognized := .unrecognizedSubscribeReasonCode
  complete := by intro code; cases code <;> decide
  distinct := by decide +kernel

inductive UnsubAckReasonCode where
  | success
  | noSubscriptionExisted
  | unspecifiedError
  | implementationSpecificError
  | notAuthorized
  | topicFilterInvalid
  | packetIdentifierInUse
  deriving DecidableEq, Repr

instance : U8Code UnsubAckReasonCode where
  toU8
    | .success => 0x00
    | .noSubscriptionExisted => 0x11
    | .unspecifiedError => 0x80
    | .implementationSpecificError => 0x83
    | .notAuthorized => 0x87
    | .topicFilterInvalid => 0x8F
    | .packetIdentifierInUse => 0x91
  all := [.success, .noSubscriptionExisted, .unspecifiedError, .implementationSpecificError,
    .notAuthorized, .topicFilterInvalid, .packetIdentifierInUse]
  unrecognized := .unrecognizedUnsubAckReasonCode
  complete := by intro code; cases code <;> decide
  distinct := by decide +kernel

def UnsubAckReasonCode.isSuccess : UnsubAckReasonCode → Bool
  | .success | .noSubscriptionExisted => true
  | _ => false

inductive RetainHandling where
  | send
  | sendOnlyIfSubscriptionDoesNotCurrentlyExist
  | doNotSend
  deriving DecidableEq, Repr

instance : U8Code RetainHandling where
  toU8
    | .send => 0x00
    | .sendOnlyIfSubscriptionDoesNotCurrentlyExist => 0x01
    | .doNotSend => 0x02
  all := [.send, .sendOnlyIfSubscriptionDoesNotCurrentlyExist, .doNotSend]
  unrecognized := .unrecognizedRetainHandling
  complete := by intro code; cases code <;> decide
  distinct := by decide

inductive AuthenticateReasonCode where
  | success
  | continueAuthentication
  | reAuthenticate
  deriving DecidableEq, Repr

instance : U8Code AuthenticateReasonCode where
  toU8
    | .success => 0x00
    | .continueAuthentication => 0x18
    | .reAuthenticate => 0x19
  all := [.success, .continueAuthentication, .reAuthenticate]
  unrecognized := .unrecognizedAuthenticateReasonCode
  complete := by intro code; cases code <;> decide
  distinct := by decide

inductive DisconnectReasonCode where
  | normal
  | disconnectWithWillMessage
  | unspecifiedError
  | malformedPacket
  | protocolError
  | implementationSpecificError
  | notAuthorized
  | serverBusy
  | serverShuttingDown
  | keepAliveTimeout
  | sessionTakenOver
  | topicFilterInvalid
  | topicNameInvalid
  | receiveMaximumExceeded
  | topicAliasInvalid
  | packetTooLarge
  | messageRateTooHigh
  | quotaExceeded
  | administrativeAction
  | payloadFormatInvalid
  | retainNotSupported
  | qosNotSupported
  | useAnotherServer
  | serverMoved
  | sharedSubscriptionsNotSupported
  | connectionRateExceeded
  | maximumConnectTime
  | subscriptionIdentifiersNotSupported
  | wildcardSubscriptionsNotSupported
  deriving DecidableEq, Repr

instance : U8Code DisconnectReasonCode where
  toU8
    | .normal => 0x00
    | .disconnectWithWillMessage => 0x04
    | .unspecifiedError => 0x80
    | .malformedPacket => 0x81
    | .protocolError => 0x82
    | .implementationSpecificError => 0x83
    | .notAuthorized => 0x87
    | .serverBusy => 0x89
    | .serverShuttingDown => 0x8B
    | .keepAliveTimeout => 0x8D
    | .sessionTakenOver => 0x8E
    | .topicFilterInvalid => 0x8F
    | .topicNameInvalid => 0x90
    | .receiveMaximumExceeded => 0x93
    | .topicAliasInvalid => 0x94
    | .packetTooLarge => 0x95
    | .messageRateTooHigh => 0x96
    | .quotaExceeded => 0x97
    | .administrativeAction => 0x98
    | .payloadFormatInvalid => 0x99
    | .retainNotSupported => 0x9A
    | .qosNotSupported => 0x9B
    | .useAnotherServer => 0x9C
    | .serverMoved => 0x9D
    | .sharedSubscriptionsNotSupported => 0x9E
    | .connectionRateExceeded => 0x9F
    | .maximumConnectTime => 0xA0
    | .subscriptionIdentifiersNotSupported => 0xA1
    | .wildcardSubscriptionsNotSupported => 0xA2
  all := [.normal, .disconnectWithWillMessage, .unspecifiedError, .malformedPacket,
    .protocolError, .implementationSpecificError, .notAuthorized, .serverBusy,
    .serverShuttingDown, .keepAliveTimeout, .sessionTakenOver, .topicFilterInvalid,
    .topicNameInvalid, .receiveMaximumExceeded, .topicAliasInvalid, .packetTooLarge,
    .messageRateTooHigh, .quotaExceeded, .administrativeAction, .payloadFormatInvalid,
    .retainNotSupported, .qosNotSupported, .useAnotherServer, .serverMoved,
    .sharedSubscriptionsNotSupported, .connectionRateExceeded, .maximumConnectTime,
    .subscriptionIdentifiersNotSupported, .wildcardSubscriptionsNotSupported]
  unrecognized := .unrecognizedDisconnectReasonCode
  complete := by intro code; cases code <;> decide
  distinct := by decide +kernel

/-- Errors of the encoder. -/
inductive EncodeError where
  | insufficientBuffer
  | noTopics
  | remainingLengthTooHigh (length : Nat)
  | varintTooHigh (value : UInt32)
  | willTooLarge (length : Nat)
  | connectPasswordWithoutUsername
  | negativePubAck (code : PubAckReasonCode)
  | negativePubComp (code : PubCompReasonCode)
  | negativePubRec (code : PubRecReasonCode)
  | negativePubRel (code : PubRelReasonCode)
  | negativeUnsubAck (code : UnsubAckReasonCode)
  deriving DecidableEq, Repr

end MqttClient.Proto
