import Chip8.Main
import Chip8.Pace
import Chip8.Machine.Input
import Chip8.Machine.Watch
import Chip8.Proofs.Calls
import Chip8.Proofs.Reset
import Chip8.Proofs.Modes
import Chip8.Proofs.Coherence
import Chip8.Proofs.Footprint
import Chip8.Proofs.Locality
import Chip8.Proofs.Stores
import Chip8.Proofs.Trace
import Chip8.Proofs.Observation
import Chip8.Proofs.Mnemonics
import Chip8.Proofs.Timers
import Chip8.Proofs.Chronicle
import Chip8.Proofs.Playing
import Chip8.Proofs.Courses
import Chip8.Proofs.Screen
import Chip8.Proofs.Schedule
import Chip8.Proofs.Brackets
import Chip8.Proofs.ExitStatus
import Chip8.Proofs.Sounding
import Chip8.Proofs.Partition
import Chip8.Proofs.Refusals
import Chip8.Proofs.Damage
import Chip8.Proofs.Lines
import Chip8.Proofs.Randomness
import Chip8.Proofs.Verbosity
import Chip8.Proofs.Arithmetic
import Chip8.Proofs.Drawing
import Chip8.Proofs.CommandLine
import Chip8.Proofs.Period
import Chip8.Proofs.Redrawing
import Chip8.Proofs.Parity
import Chip8.Proofs.Reach
import Chip8.Proofs.Restoring
import Chip8.Proofs.Operands
import Chip8.Proofs.Columns
import Chip8.Proofs.Attempts
import Chip8.Proofs.Piles
import Chip8.Proofs.Ranges
import Chip8.Proofs.Reckoning
