import StepMachine.Token.Listing
import StepMachine.Proofs.Address
import StepMachine.Proofs.Compiled.Failure
import StepMachine.Proofs.Compiled.Filling
import StepMachine.Proofs.Compiled.Places
import StepMachine.Proofs.Compiled.Requests
import StepMachine.Proofs.Compiled.Respacing
import StepMachine.Proofs.Compiled.Walk
import StepMachine.Proofs.PatternFlags
import StepMachine.Proofs.Scheme.Abandonment
import StepMachine.Proofs.Scheme.CursorUse
import StepMachine.Proofs.Scheme.Renaming
import StepMachine.Proofs.Token.Joining
import StepMachine.Proofs.Token.Rounds
import StepMachine.Proofs.Token.Spelling
