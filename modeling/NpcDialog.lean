import NpcDialog.Dialog.Channel
import NpcDialog.Dialog.Manager
import NpcDialog.Dialog.Sink
import NpcDialog.Main
import NpcDialog.Proofs.Code.Archive
import NpcDialog.Proofs.Code.Loading
import NpcDialog.Proofs.Command.Playing
import NpcDialog.Proofs.Dialog.Activity
import NpcDialog.Proofs.Dialog.Advance
import NpcDialog.Proofs.Dialog.Atomicity
import NpcDialog.Proofs.Dialog.Balance
import NpcDialog.Proofs.Dialog.CallbackCalls
import NpcDialog.Proofs.Dialog.Delivery
import NpcDialog.Proofs.Dialog.Invariant
import NpcDialog.Proofs.Dialog.Lifetimes
import NpcDialog.Proofs.Dialog.Originals
import NpcDialog.Proofs.Dialog.Rejections
import NpcDialog.Proofs.Dialog.Replay
import NpcDialog.Proofs.Dialog.Simulation
import NpcDialog.Proofs.Dialog.Rounds
import NpcDialog.Proofs.Dialog.Stripping
import NpcDialog.Proofs.Dialog.Transparency
import NpcDialog.Proofs.Machine.Functions
import NpcDialog.Proofs.Machine.Occurs
import NpcDialog.Proofs.Machine.Turns
import NpcDialog.Proofs.Script.Reads
import NpcDialog.Proofs.Script.Fields
import NpcDialog.Proofs.Script.CapturedNames
