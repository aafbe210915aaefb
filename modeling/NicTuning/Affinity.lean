import NicTuning.Fault
import NicTuning.Tuning.Basic

/-!
# Affinity of interrupts

Which processors may handle which interrupt of a device, and whether a list of processors names
only such as the machine has.
-/
namespace NicTuning.Affinity

/-- Processors as a list for the kernel. -/
def processorList (processors : List UInt32) : String :=
  ",".intercalate (processors.map toString)

/-- The processors for each interrupt. Interrupts go round the list one by one, or each may go to
all of it. No interrupt is assigned when the list is empty. -/
def assign (interrupts processors : List UInt32) (spreading : Spreading) :
    List (UInt32 × String) :=
  if h : processors = [] then []
  else
    match spreading with
    | .roundRobin =>
      interrupts.mapIdx fun i n =>
        (n, toString (processors.get ⟨i % processors.length,
          Nat.mod_lt _ (List.length_pos_iff.2 h)⟩))
    | .all => interrupts.map fun n => (n, processorList processors)

/-- The processors that a machine accepts. -/
def accepted (count : Nat) : String :=
  if count = 1 then "value is: 0" else "values are: 0.." ++ toString (count - 1)

/-- A processor of a machine with so many of them. -/
def checkProcessor (count : Nat) (processor : Int64) : Except Fault UInt32 :=
  if 0 ≤ processor.toInt ∧ processor.toInt < UInt32.size ∧ processor.toInt < count then
    .ok (UInt32.ofNat processor.toInt.toNat)
  else
    .error (.invalidParameter "dev_intr_cpu_lists"
      ("Invalid CPU value given: " ++ toString processor.toInt ++ ". Accepted " ++
        accepted count ++ "."))

/-- Processors of a machine with so many of them; the first that it lacks is reported. -/
def checkProcessors (processors : List Int64) (count : Nat) : Except Fault (List UInt32) :=
  if count = 0 then .error (.parse "lscpu reported no CPUs")
  else processors.mapM (checkProcessor count)

end NicTuning.Affinity
