import BucketMount.Main
import BucketMount.Rehearsal
import BucketMount.Hooks.Session
import BucketMount.Proofs.Fallible
import BucketMount.Proofs.Stateful
import BucketMount.Proofs.Directive.Grammar
import BucketMount.Proofs.MountList.RoundTrip
import BucketMount.Proofs.MountList.Lenient
import BucketMount.Proofs.MountList.Resolution
import BucketMount.Proofs.MountList.Merge
import BucketMount.Proofs.Hooks.Capture
import BucketMount.Proofs.Hooks.CaptureRun
import BucketMount.Proofs.Hooks.CaptureOrder
import BucketMount.Proofs.Hooks.Setup
import BucketMount.Proofs.Hooks.Ledger
import BucketMount.Proofs.Process.Rules
import BucketMount.Proofs.Process.Charge
import BucketMount.Proofs.Process.Custody
import BucketMount.Proofs.Process.Reaping
import BucketMount.Proofs.Process.Lifetime
import BucketMount.Proofs.Worker.Rules
import BucketMount.Proofs.Journal
import BucketMount.Proofs.Dictation
import BucketMount.Proofs.Hooks.Calls
import BucketMount.Proofs.Hooks.MountedSet
import BucketMount.Proofs.Hooks.JobLife
import BucketMount.Proofs.StepCleanup
import BucketMount.Proofs.Worker.Traffic
import BucketMount.Proofs.Worker.StatusPipe
import BucketMount.Proofs.Credentials
import BucketMount.Proofs.Worker.PrivilegeGate
import BucketMount.Proofs.Process.ReadinessRace
import BucketMount.Proofs.Process.MountCleanup
import BucketMount.Proofs.Text.Utf8
import BucketMount.Proofs.MountList.Characters
import BucketMount.Proofs.Hooks.CaptureVariable
import BucketMount.Proofs.Path
import BucketMount.Proofs.Hooks.PathScopes
import BucketMount.Proofs.Credentials.Regain
import BucketMount.Proofs.StepCode
import BucketMount.Proofs.Directive.Acceptance
import BucketMount.Proofs.MountList.Canonical
import BucketMount.Proofs.Hooks.StoredText
import BucketMount.Proofs.MountList.Readers
import BucketMount.Proofs.Process.Logbook
import BucketMount.Proofs.Process.Vigil
import BucketMount.Proofs.Process.Escalation
import BucketMount.Proofs.Process.Patience
import BucketMount.Proofs.Worker.Stages
import BucketMount.Proofs.Worker.FirstFailure
import BucketMount.Proofs.SignalScope
import BucketMount.Proofs.Helper.Unmount
import BucketMount.Proofs.Machine.FileSystem
import BucketMount.Proofs.Mountpoint.Preparation
import BucketMount.Proofs.Json.Grammar
import BucketMount.Proofs.Json.Reading
import BucketMount.Proofs.Json.Writing
import BucketMount.Proofs.Config.Setting
import BucketMount.Proofs.Config.Loading
import BucketMount.Proofs.Text.Cut
import BucketMount.Proofs.Helper.Argv
import BucketMount.Proofs.Hooks.NodeTeardown
import BucketMount.Proofs.Process.Instant
import BucketMount.Proofs.Process.BoundedWait
import BucketMount.Proofs.Process.Range
