import HertzBeat.Collect.CalculatedRows
import HertzBeat.Collect.MessageRouter
import HertzBeat.Collect.ReadFields
import HertzBeat.Collect.SecondPass
import HertzBeat.Dispatcher.Isolation
import HertzBeat.Dispatcher.Lifecycle
import HertzBeat.Dispatcher.MetricsTask
import HertzBeat.Dispatcher.NeverLost
import HertzBeat.Dispatcher.OneTimeJobs
import HertzBeat.Dispatcher.Period
import HertzBeat.Dispatcher.Removal
import HertzBeat.Dispatcher.WheelFiring
import HertzBeat.Param.Decryption
import HertzBeat.Param.Frame
import HertzBeat.Transport.Answers
import HertzBeat.Transport.ArrivalOrder
import HertzBeat.Transport.Deliveries
import HertzBeat.Transport.Frames
import HertzBeat.Transport.GrpcLoops
import HertzBeat.Transport.NettyLoops
import HertzBeat.Transport.Writers
import HertzBeat.Dispatcher.Intervals
import HertzBeat.Collect.PlainJobs
import HertzBeat.Collect.ParamStrings
import HertzBeat.Dispatcher.PriorMetrics
import HertzBeat.Dispatcher.MetricsRound
import HertzBeat.Transport.BatchDelete
import HertzBeat.Lib.URL
import HertzBeat.Collect.DatabaseURL
import HertzBeat.Collect.URLCheck
import HertzBeat.Collect.RowQueries
import HertzBeat.Collect.ColumnQueries
import HertzBeat.Collect.ScriptOutput
import HertzBeat.Collect.RedisInfo
import HertzBeat.Collect.JsonPaths
import HertzBeat.Collect.HTTPRows
import HertzBeat.Collect.UnitConversion
import HertzBeat.Collect.CalculateForms
import HertzBeat.Collect.NamedFields
import HertzBeat.Collect.SuffixedValues
import HertzBeat.Collect.Timeouts
import HertzBeat.Transport.LengthPrefix
import HertzBeat.Collect.NumberFormat
import HertzBeat.Collect.DigestChallenge
import HertzBeat.Collect.DigestAnswer
import HertzBeat.Collect.TunnelForward
import HertzBeat.Transport.ClientLock
import HertzBeat.Collect.ResultIdentity
import HertzBeat.Service.Rounds
import HertzBeat.Service.Machine
import HertzBeat.Service.Reporting
import HertzBeat.Service.AtMostOnce
import HertzBeat.Collect.Connections
import HertzBeat.Collect.IdleConnections
import HertzBeat.Transport.ShutdownFinal
import HertzBeat.Config.Loader
import HertzBeat.Transport.ConnectRunner
import HertzBeat.Service.Progress
import HertzBeat.Service.IssuedOnce
import HertzBeat.Param.JobTree
import HertzBeat.Param.ReplacedTree
