import Phrasebook.Context.Step
import Phrasebook.Host.Stock
import Phrasebook.Main
import Phrasebook.Outline
import Phrasebook.Store.Memory
import Phrasebook.Proofs.Load.Expansion
import Phrasebook.Proofs.Context.Concurrent
import Phrasebook.Proofs.Grammar.Precedence
import Phrasebook.Proofs.Grammar.Quoting
import Phrasebook.Proofs.Resource.Concat
import Phrasebook.Proofs.Eval.Depth
import Phrasebook.Proofs.Context.View
import Phrasebook.Proofs.Context.Below
import Phrasebook.Proofs.Context.Carry
import Phrasebook.Proofs.Entry.Names
import Phrasebook.Proofs.Eval.Missing
import Phrasebook.Proofs.Context.Private
import Phrasebook.Proofs.Eval.Walk
import Phrasebook.Proofs.Load.Blocking
import Phrasebook.Proofs.Context.Refusal
import Phrasebook.Proofs.Load.Opened
import Phrasebook.Proofs.Context.Announced
import Phrasebook.Proofs.Eval.Default
import Phrasebook.Proofs.Eval.Arguments
import Phrasebook.Proofs.Eval.Integer
import Phrasebook.Proofs.Registry.Texts
import Phrasebook.Proofs.Eval.Textual
import Phrasebook.Proofs.Eval.Getters
import Phrasebook.Proofs.Eval.Cycle
import Phrasebook.Proofs.Eval.Hygiene
import Phrasebook.Proofs.Registry.Override
import Phrasebook.Proofs.Grammar.Repeated
import Phrasebook.Proofs.Grammar.Limit
import Phrasebook.Proofs.Load.Naming
import Phrasebook.Proofs.Reference.Candidate
import Phrasebook.Proofs.Cli.Report
import Phrasebook.Proofs.Cli.Check
import Phrasebook.Proofs.Cli.Coverage
import Phrasebook.Proofs.Context.Reordered
