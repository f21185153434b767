import MqttLib.SessionLog.Agreement
import MqttLib.SessionLog.Durability
import MqttLib.Broker.Certificate
import MqttLib.Broker.Succession
import MqttLib.Broker.RetainedRestart
import MqttLib.Broker.Fence
import MqttLib.Broker.Identity
import MqttLib.Broker.Agreement
import MqttLib.Broker.WillContract
import MqttLib.Broker.HandOff
import MqttLib.Client.HandedOnce
import MqttLib.Broker.Exchanges
import MqttLib.Broker.UserIsolation
import MqttLib.Broker.ConnectionLimits
import MqttLib.Client.ReleaseRace
import MqttLib.Broker.GrantedQos
import MqttLib.Acl.FederatedIdentity
import MqttLib.Storage.SentOrder
import MqttLib.Protocol.ReadBudget
import MqttLib.SessionLog.Damage
import MqttLib.Storage.EmptyTake
import MqttLib.Broker.ChangeOnly
import MqttLib.Acl.Deciding
import MqttLib.Acl.UserPatterns
import MqttLib.Client.ReceiveMaximum
import MqttLib.Client.AckOrder
import MqttLib.Protocol.Reconnect
import MqttLib.Protocol.TopicAlias
import MqttLib.Protocol.VariableInt
