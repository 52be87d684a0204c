import HttpDispatch.Connection.Address
import HttpDispatch.Connection.Server
import HttpDispatch.Proofs.Connection.Pipelining
import HttpDispatch.Proofs.Connection.Cuts
import HttpDispatch.Proofs.Connection.Limit
import HttpDispatch.Proofs.Binding.Outcome
import HttpDispatch.Proofs.Binding.Soundness
import HttpDispatch.Proofs.Binding.Refused
import HttpDispatch.Proofs.Pipeline.Interleaving
import HttpDispatch.Proofs.Pipeline.Lifecycle
import HttpDispatch.Proofs.Message.Lines
import HttpDispatch.Proofs.Message.Wire
import HttpDispatch.Proofs.Message.Parameters
import HttpDispatch.Proofs.Message.Submission
import HttpDispatch.Proofs.Message.Places
import HttpDispatch.Proofs.Message.Handles
import HttpDispatch.Proofs.Head.Written
import HttpDispatch.Proofs.Text.Split
import HttpDispatch.Proofs.Text.Elements
import HttpDispatch.Proofs.Text.Utf8
import HttpDispatch.Proofs.Routing.Selection
import HttpDispatch.Proofs.Routing.Pieces
import HttpDispatch.Proofs.Text.Percent
import HttpDispatch.Proofs.Routing.Instances
import HttpDispatch.Proofs.Routing.Inclusion
import HttpDispatch.Proofs.Pipeline.Filters
import HttpDispatch.Proofs.Binding.Routed
import HttpDispatch.Proofs.Binding.Trial
import HttpDispatch.Proofs.Message.Query
import HttpDispatch.Proofs.Message.Recovered
import HttpDispatch.Proofs.Pipeline.Bound
import HttpDispatch.Proofs.Binding.Defaults
import HttpDispatch.Proofs.Binding.Lists
import HttpDispatch.Proofs.Binding.Beans
import HttpDispatch.Proofs.Binding.Hooks
import HttpDispatch.Proofs.Message.Preference
import HttpDispatch.Proofs.Binding.Pinned
import HttpDispatch.Proofs.Pipeline.Ending
import HttpDispatch.Proofs.Pipeline.Deeds
import HttpDispatch.Proofs.Pipeline.Waiting
import HttpDispatch.Proofs.Pipeline.Signalled
import HttpDispatch.Proofs.Text.Case
import HttpDispatch.Proofs.Message.Cookies
import HttpDispatch.Proofs.Message.Notation
import HttpDispatch.Pipeline.Setup
import HttpDispatch.Proofs.Pipeline.Registration
import HttpDispatch.Proofs.Pipeline.Action
