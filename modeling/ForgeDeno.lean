import ForgeDeno.ArtifactPaths
import ForgeDeno.BundleIntegrity
import ForgeDeno.PoolCapacity
import ForgeDeno.PoolClose
import ForgeDeno.RuntimeRouting
import ForgeDeno.SessionBound
import ForgeDeno.SessionWakeups
import ForgeDeno.WorkerPool
import ForgeDeno.ResponseSoundness
import ForgeDeno.ScanProgress
import ForgeDeno.LogTransparency
import ForgeDeno.Observers
import ForgeDeno.EcPoints
import ForgeDeno.NativeGcm
import ForgeDeno.QualifiedCopies
import ForgeDeno.RsaPublicKeys
import ForgeDeno.DerivedObjects
import ForgeDeno.EquivalentKeys
import ForgeDeno.RotationLabels
import ForgeDeno.ErrorIdentity
import ForgeDeno.DeadlineRuns
import ForgeDeno.EccPayloads
import ForgeDeno.JwtErrors
import ForgeDeno.KmsInitialization
import ForgeDeno.PinRefusal
import ForgeDeno.SignalRace
import ForgeDeno.TokenAttribute
import ForgeDeno.SectionFlattening
import ForgeDeno.IniComments
import ForgeDeno.SettingLookups
import ForgeDeno.KeyLowering
import ForgeDeno.CronSampling
import ForgeDeno.IniLosses
import ForgeDeno.DeadSessions
import ForgeDeno.RouteGroups
import ForgeDeno.SanitizerIdempotence
import ForgeDeno.ServiceRows
import ForgeDeno.CanonicalEntries
import ForgeDeno.LineStructure
import ForgeDeno.IgnoredHeaders
import ForgeDeno.Tracestate
import ForgeDeno.SinkDelivery
import ForgeDeno.BackupReplacement
import ForgeDeno.PemText
import ForgeDeno.DirectorySearch
import ForgeDeno.UnaryComposition
import ForgeDeno.ClientUrls
import ForgeDeno.FactoryRuns
import ForgeDeno.HardwareEcdh
