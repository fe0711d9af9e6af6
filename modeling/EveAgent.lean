import EveAgent.FileTrans.Recovery
import EveAgent.Scheduler.Midnight
import EveAgent.Scheduler.HourFidelity
import EveAgent.Scheduler.DeletedTasks
import EveAgent.Scheduler.RebuildFlag
import EveAgent.Scheduler.OneShot
import EveAgent.TrapQueue.Agents
import EveAgent.Rbm.Fold
import EveAgent.AppMetering.Reaction
import EveAgent.Backup.LogFile
import EveAgent.Icp.Reload
import EveAgent.Icp.Sessions
import EveAgent.FileDist.JobList
import EveAgent.Scheduler.Startup
import EveAgent.MasterAgent.Routing
import EveAgent.MasterAgent.ConfigReload
import EveAgent.MasterAgent.RequestList
import EveAgent.MasterAgent.XmlSet
import EveAgent.Rtcm.Grid
import EveAgent.Rtcm.Collecting
import EveAgent.Rtcm.LinesKept
import EveAgent.TcpWrapper.ActiveRows
import EveAgent.TransMon.ResponseTime
import EveAgent.LogMon.RecordsKept
import EveAgent.LogMon.OneThread
import EveAgent.PortMon.Alerts
import EveAgent.ProcMon.SendLock
import EveAgent.ProcMon.AlertProtocol
import EveAgent.Nuri.WalkedRows
import EveAgent.Scheduler.AutoClean
import EveAgent.Scheduler.LongIntervals
import EveAgent.Scheduler.Replacement
import EveAgent.Scheduler.TaskSlots
import EveAgent.Scheduler.SortedLinks
import EveAgent.JobSched.ModifyEvents
import EveAgent.JobSched.SpawnedJobs
import EveAgent.Rtcm.StatisticsRows
import EveAgent.FileTrans.Packetise
import EveAgent.FileTrans.Destination
import EveAgent.FileTrans.WindowAccess
import EveAgent.FileTrans.Listener
import EveAgent.ProcMon.ReactionCommand
import EveAgent.Rbm.GetRow
import EveAgent.UserControl.Merge
import EveAgent.Rbm.PolicyFile
import EveAgent.AppMetering.Columns
import EveAgent.AppMetering.TableLoad
import EveAgent.Backup.SpawnBackup
import EveAgent.LogStatus.Buffering
import EveAgent.MasterAgent.UtilList
import EveAgent.MasterAgent.Encryption
import EveAgent.MasterAgent.ReadXml
import EveAgent.FileDist.ParseXml
import EveAgent.FileDist.RelayedConfig
import EveAgent.FileDist.ScheduledDate
import EveAgent.MasterAgent.SetDocument
import EveAgent.AgentInfo.Restart
import EveAgent.Rtcm.CollectionList
import EveAgent.Rtcm.RenderedValue
import EveAgent.TransMon.CapturedRows
import EveAgent.TableColumns
import EveAgent.FileTrans.Checksum
import EveAgent.SysStats.UpdateRow
import EveAgent.FileMon.FileStatus
import EveAgent.LogMon.TimeFormat
import EveAgent.LogMon.RowAlerts
import EveAgent.ProcMon.ThresholdAlerts
import EveAgent.ProcMon.DataFile
import EveAgent.ProcMon.CpuAverage
import EveAgent.LogMon.ColumnSearch
import EveAgent.Icp.FileBrowser
