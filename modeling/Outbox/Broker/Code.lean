import Outbox.Broker.Refusal
/-! The errors of a message broker's client: the codes with their names and descriptions, the situations
in which they are reported, and the refusal that each amounts to. -/

namespace Outbox.Broker

/-- An error code of the client or of the broker. -/
inductive Code
  | badMessage
  | brokerTransportFailure
  | resolve
  | messageTimedOut
  | unknownPartition
  | fileSystem
  | unknownTopic
  | allBrokersDown
  | invalidArgument
  | operationTimedOut
  | queueFull
  | isrInsufficient
  | ssl
  | authentication
  | timedOutQueue
  | unsupportedFeature
  | retry
  | purgeQueue
  | purgeInflight
  | fatal
  | unknown
  | noError
  | invalidMessage
  | unknownTopicOrPartition
  | invalidMessageSize
  | leaderNotAvailable
  | notLeaderForPartition
  | requestTimedOut
  | brokerNotAvailable
  | messageSizeTooLarge
  | networkException
  | invalidTopic
  | messageBatchTooLarge
  | notEnoughReplicas
  | notEnoughReplicasAfterAppend
  | invalidRequiredAcks
  | topicAuthorizationFailed
  | groupAuthorizationFailed
  | clusterAuthorizationFailed
  | invalidTimestamp
  | unsupportedVersion
  | topicAlreadyExists
  | policyViolation
  | outOfOrderSequenceNumber
  | duplicateSequenceNumber
  | invalidProducerEpoch
  | kafkaStorageError
  | unknownTopicId
  | invalidRecord
  | producerFenced
deriving DecidableEq, Repr, Inhabited

namespace Code

def name : Code → String
  | badMessage => "BadMessage"
  | brokerTransportFailure => "BrokerTransportFailure"
  | resolve => "Resolve"
  | messageTimedOut => "MessageTimedOut"
  | unknownPartition => "UnknownPartition"
  | fileSystem => "FileSystem"
  | unknownTopic => "UnknownTopic"
  | allBrokersDown => "AllBrokersDown"
  | invalidArgument => "InvalidArgument"
  | operationTimedOut => "OperationTimedOut"
  | queueFull => "QueueFull"
  | isrInsufficient => "ISRInsufficient"
  | ssl => "SSL"
  | authentication => "Authentication"
  | timedOutQueue => "TimedOutQueue"
  | unsupportedFeature => "UnsupportedFeature"
  | retry => "Retry"
  | purgeQueue => "PurgeQueue"
  | purgeInflight => "PurgeInflight"
  | fatal => "Fatal"
  | unknown => "Unknown"
  | noError => "NoError"
  | invalidMessage => "InvalidMessage"
  | unknownTopicOrPartition => "UnknownTopicOrPartition"
  | invalidMessageSize => "InvalidMessageSize"
  | leaderNotAvailable => "LeaderNotAvailable"
  | notLeaderForPartition => "NotLeaderForPartition"
  | requestTimedOut => "RequestTimedOut"
  | brokerNotAvailable => "BrokerNotAvailable"
  | messageSizeTooLarge => "MessageSizeTooLarge"
  | networkException => "NetworkException"
  | invalidTopic => "InvalidTopic"
  | messageBatchTooLarge => "MessageBatchTooLarge"
  | notEnoughReplicas => "NotEnoughReplicas"
  | notEnoughReplicasAfterAppend => "NotEnoughReplicasAfterAppend"
  | invalidRequiredAcks => "InvalidRequiredAcks"
  | topicAuthorizationFailed => "TopicAuthorizationFailed"
  | groupAuthorizationFailed => "GroupAuthorizationFailed"
  | clusterAuthorizationFailed => "ClusterAuthorizationFailed"
  | invalidTimestamp => "InvalidTimestamp"
  | unsupportedVersion => "UnsupportedVersion"
  | topicAlreadyExists => "TopicAlreadyExists"
  | policyViolation => "PolicyViolation"
  | outOfOrderSequenceNumber => "OutOfOrderSequenceNumber"
  | duplicateSequenceNumber => "DuplicateSequenceNumber"
  | invalidProducerEpoch => "InvalidProducerEpoch"
  | kafkaStorageError => "KafkaStorageError"
  | unknownTopicId => "UnknownTopicId"
  | invalidRecord => "InvalidRecord"
  | producerFenced => "ProducerFenced"

def description : Code → String
  | badMessage => "Local: Bad message format"
  | brokerTransportFailure => "Local: Broker transport failure"
  | resolve => "Local: Host resolution failure"
  | messageTimedOut => "Local: Message timed out"
  | unknownPartition => "Local: Unknown partition"
  | fileSystem => "Local: File or filesystem error"
  | unknownTopic => "Local: Unknown topic"
  | allBrokersDown => "Local: All broker connections are down"
  | invalidArgument => "Local: Invalid argument or configuration"
  | operationTimedOut => "Local: Timed out"
  | queueFull => "Local: Queue full"
  | isrInsufficient => "Local: ISR count insufficient"
  | ssl => "Local: SSL error"
  | authentication => "Local: Authentication failure"
  | timedOutQueue => "Local: Timed out in queue"
  | unsupportedFeature => "Local: Required feature not supported by broker"
  | retry => "Local: Retry operation"
  | purgeQueue => "Local: Purged in queue"
  | purgeInflight => "Local: Purged in flight"
  | fatal => "Local: Fatal error"
  | unknown => "Unknown broker error"
  | noError => "Success"
  | invalidMessage => "Broker: Invalid message"
  | unknownTopicOrPartition => "Broker: Unknown topic or partition"
  | invalidMessageSize => "Broker: Invalid message size"
  | leaderNotAvailable => "Broker: Leader not available"
  | notLeaderForPartition => "Broker: Not leader for partition"
  | requestTimedOut => "Broker: Request timed out"
  | brokerNotAvailable => "Broker: Broker not available"
  | messageSizeTooLarge => "Broker: Message size too large"
  | networkException => "Broker: Broker disconnected before response received"
  | invalidTopic => "Broker: Invalid topic"
  | messageBatchTooLarge => "Broker: Message batch larger than configured server segment size"
  | notEnoughReplicas => "Broker: Not enough in-sync replicas"
  | notEnoughReplicasAfterAppend => "Broker: Message(s) written to insufficient number of in-sync replicas"
  | invalidRequiredAcks => "Broker: Invalid required acks value"
  | topicAuthorizationFailed => "Broker: Topic authorization failed"
  | groupAuthorizationFailed => "Broker: Group authorization failed"
  | clusterAuthorizationFailed => "Broker: Cluster authorization failed"
  | invalidTimestamp => "Broker: Invalid timestamp"
  | unsupportedVersion => "Broker: API version not supported"
  | topicAlreadyExists => "Broker: Topic already exists"
  | policyViolation => "Broker: Policy violation"
  | outOfOrderSequenceNumber => "Broker: Broker received an out of order sequence number"
  | duplicateSequenceNumber => "Broker: Broker received a duplicate sequence number"
  | invalidProducerEpoch => "Broker: Producer attempted an operation with an old epoch"
  | kafkaStorageError => "Broker: Disk error when trying to access log file on disk"
  | unknownTopicId => "Broker: Unknown topic id"
  | invalidRecord => "Broker: Broker failed to validate record"
  | producerFenced => "Broker: There is a newer producer with the same transactionalId which fences the current one"

def all : List Code := [
  .badMessage, .brokerTransportFailure, .resolve, .messageTimedOut, .unknownPartition, .fileSystem,
  .unknownTopic, .allBrokersDown, .invalidArgument, .operationTimedOut, .queueFull, .isrInsufficient,
  .ssl, .authentication, .timedOutQueue, .unsupportedFeature, .retry, .purgeQueue, .purgeInflight,
  .fatal, .unknown, .noError, .invalidMessage, .unknownTopicOrPartition, .invalidMessageSize,
  .leaderNotAvailable, .notLeaderForPartition, .requestTimedOut, .brokerNotAvailable,
  .messageSizeTooLarge, .networkException, .invalidTopic, .messageBatchTooLarge, .notEnoughReplicas,
  .notEnoughReplicasAfterAppend, .invalidRequiredAcks, .topicAuthorizationFailed,
  .groupAuthorizationFailed, .clusterAuthorizationFailed, .invalidTimestamp, .unsupportedVersion,
  .topicAlreadyExists, .policyViolation, .outOfOrderSequenceNumber, .duplicateSequenceNumber,
  .invalidProducerEpoch, .kafkaStorageError, .unknownTopicId, .invalidRecord, .producerFenced]

def ofName? (s : String) : Option Code := all.find? fun code => code.name == s

def describe (c : Code) : String := c.name ++ " (" ++ c.description ++ ")"

end Code

/-! ### Errors of the client -/

/-- What the client was doing when it met an error code. -/
inductive Activity
  | production
  | consumption
  | global
  | flush
  | metadata
deriving DecidableEq, Repr, Inhabited

def Activity.label : Activity → String
  | production => "Message production error: "
  | consumption => "(Fatal) Message consumption error: "
  | global => "Global error: "
  | flush => "Flush error: "
  | metadata => "Meta data fetch error: "

/-- What the client was asked for when it failed without a code to tell failures apart by. -/
inductive Request
  | creation
  | subscription
  | seek
deriving DecidableEq, Repr, Inhabited

def Request.label : Request → String
  | creation => "Client creation error: "
  | subscription => "Subscription error: "
  | seek => "Seek error: "

inductive ClientError
  | coded (activity : Activity) (code : Code)
  /-- An administrative operation failed; its code does not count. -/
  | administration (code : Code)
  | canceled
  | nothingReceived
  | endOfPartition (partition : Nat)
  | failed (request : Request) (text : String)
deriving DecidableEq, Repr, Inhabited

namespace ClientError

def message : ClientError → String
  | coded activity code => activity.label ++ code.describe
  | administration code => "Admin operation error: " ++ code.describe
  | canceled => "KafkaError (Client dropped)"
  | nothingReceived => "No message received within the given poll interval"
  | endOfPartition partition => "Partition EOF: " ++ Nat.repr partition
  | failed request text => request.label ++ text

def code? : ClientError → Option Code
  | coded _ code => some code
  | _ => none

/-- What the error means for a message to a topic. -/
def refusal (e : ClientError) (topic : String) : Refusal :=
  match e.code? with
  | some .unknownTopicOrPartition | some .unknownTopic | some .invalidTopic
  | some .topicAuthorizationFailed => .invalidDestination topic e.message
  | some .messageSizeTooLarge | some .invalidMessage => .rejected e.message
  | some .allBrokersDown | some .brokerTransportFailure | some .resolve => .unavailable e.message
  | _ => .notDelivered e.message

end ClientError

end Outbox.Broker
