import Fanout.Scenario
import Fanout.Proofs.Accounts
import Fanout.Proofs.Aggregate
import Fanout.Proofs.Agreement
import Fanout.Proofs.Apart
import Fanout.Proofs.Arities
import Fanout.Proofs.Cancellation
import Fanout.Proofs.FailureOrder
import Fanout.Proofs.Footprint
import Fanout.Proofs.Isolation
import Fanout.Proofs.Legible
import Fanout.Proofs.Lifetime
import Fanout.Proofs.Lockstep
import Fanout.Proofs.OneWay
import Fanout.Proofs.Panics
import Fanout.Proofs.PassLog
import Fanout.Proofs.Racing
import Fanout.Proofs.Residence
import Fanout.Proofs.Scheduling
import Fanout.Proofs.Sequel
import Fanout.Proofs.Standstill
import Fanout.Proofs.Undisturbed
import Fanout.Proofs.WeakHandles
