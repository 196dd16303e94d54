import VolumeCache.AccessOrder
import VolumeCache.Registry.Session
import VolumeCache.Scenario.Reporting
import VolumeCache.Settings
import VolumeCache.Proofs.Runs
import VolumeCache.Proofs.Steps
import VolumeCache.Proofs.Tables
import VolumeCache.Proofs.Timelines
import VolumeCache.Proofs.Calls
import VolumeCache.Proofs.Holdings
import VolumeCache.Proofs.Journal
import VolumeCache.Proofs.Stages
import VolumeCache.Proofs.Changes
import VolumeCache.Proofs.Weights
import VolumeCache.Proofs.Passes
import VolumeCache.Proofs.Budget
import VolumeCache.Proofs.Loads
import VolumeCache.Proofs.Overtaking
import VolumeCache.Proofs.Claims
import VolumeCache.Proofs.SingleFlight
import VolumeCache.Proofs.Failures
import VolumeCache.Proofs.Requests
import VolumeCache.Proofs.Disposal
import VolumeCache.Proofs.Balances
import VolumeCache.Proofs.Settling
import VolumeCache.Proofs.IndexSize
import VolumeCache.Proofs.AccessOrders
import VolumeCache.Proofs.Trimming
import VolumeCache.Proofs.Limits
import VolumeCache.Proofs.Evictions
import VolumeCache.Proofs.Examinations
import VolumeCache.Proofs.Sweeps
import VolumeCache.Proofs.ListenerPanics
import VolumeCache.Proofs.Mirroring
import VolumeCache.Proofs.Undisturbed
import VolumeCache.Proofs.Agreement
import VolumeCache.Proofs.Withdrawals
import VolumeCache.Proofs.Outlines
import VolumeCache.Proofs.Steady
import VolumeCache.Proofs.Twins
import VolumeCache.Proofs.BulkInvalidations
import VolumeCache.Proofs.Outdated
import VolumeCache.Proofs.Numerals
import VolumeCache.Proofs.Sizing
import VolumeCache.Proofs.Members
import VolumeCache.Proofs.Documents
import VolumeCache.Proofs.Preferences
import VolumeCache.Proofs.Scenarios
import VolumeCache.Proofs.Sessions
import VolumeCache.Proofs.Restarts
import VolumeCache.Proofs.FailedChanges
import VolumeCache.Proofs.Repairs
import VolumeCache.Proofs.Schema
import VolumeCache.Proofs.Requeueing
import VolumeCache.Proofs.UseQueues
import VolumeCache.Proofs.Spellings
import VolumeCache.Proofs.Layouts
import VolumeCache.Proofs.StrictReading
