import Famicom.Capture
import Famicom.CommandLine.Options
import Famicom.Console.Machine
import Famicom.File.Error
import Famicom.Png

/-!
# The program

Runs a cartridge as fast as the host allows, prints a speed sample after each second of the
console's own time, and saves the last frame at the end if asked to.  Files, the clock and the
two output streams are actions of the surroundings, so the program itself is a pure function of
them.
-/

namespace Famicom.CommandLine

inductive SaveError where
  | file (error : FileError)
  | noPixels
  deriving DecidableEq

def SaveError.message : SaveError → String
  | .file error => s!"cannot write screenshot: {error.message}"
  | .noPixels => "cannot encode screenshot: the frame has no pixels"

/-- What the program needs from its surroundings. -/
structure Environment (m : Type → Type) where
  load : String → m (Except FileError (Array UInt8))
  save : String → Png.Image → m (Except FileError Unit)
  /-- Reads the clock, in nanoseconds from some fixed time. -/
  now : m Nat
  print : String → m Unit
  log : Log.Record → m Unit
  warn : String → m Unit

/-- What changes while the program runs, the console apart. -/
structure Progress where
  capture : Capture
  epochs : Nat

def versionLine : String := "emu-nes 0.1.0"

def helpLines : List String := [
  "Run an NES cartridge and report emulation speed",
  "",
  "Usage: emu-nes [OPTIONS] --rom <ROM>",
  "",
  "Options:",
  "  -r, --rom <ROM>                iNES ROM file (.nes)",
  "  -e, --epochs <EPOCHS>          Stop after this many one-second epochs",
  "  -f, --format <FORMAT>          Telemetry line format [possible values: text, json]",
  "  -s, --screenshot <SCREENSHOT>  Save the last presented frame as PNG when the run stops",
  "  -t, --trace <TRACE>            Log per-step state [possible values: cpu, ppu, mapper]",
  "  -h, --help                     Print help",
  "  -V, --version                  Print version"]

def logTarget : String := "emu_nes"

def defaultFilter : String := "info"

/-- How many steps an epoch, and how many epochs a run, may take. -/
def horizon : Nat := 0x4000000000000000

section

variable {m : Type → Type} [Monad m]

def Environment.logIf (env : Environment m) (filter : Log.Filter) (record : Log.Record) :
    m Unit :=
  if filter.allows record then env.log record else pure ()

def reached (limit : Option Nat) (epochs : Nat) : Bool :=
  match limit with
  | some limit => limit ≤ epochs
  | none => false

/-- The host side of a run: samples are printed, and the run ends with the last epoch asked
for. -/
def Environment.host (env : Environment m) (filter : Log.Filter) (options : Options) :
    Pacing.Host (StateT Progress m) where
  now := liftM env.now
  emit sample := do
    liftM (env.print (options.format.render sample))
    modify fun p => { p with epochs := p.epochs + 1 }
  cancelled := return reached options.epochs (← get).epochs
  log record := liftM (env.logIf filter record)

/-- Observes an event of the console: frames are kept, the rest is logged. -/
def Environment.observe (env : Environment m) (filter : Log.Filter) (event : Console.Event) :
    StateT Progress m Unit := do
  modify fun p => { p with capture := p.capture.observe event }
  match event.record? with
  | some record => liftM (env.logIf filter record)
  | none => pure ()

@[specialize]
def Environment.runImage (env : Environment m) (filter : Log.Filter) (options : Options)
    (image : Array UInt8) : m (Pacing.Outcome (Pacing.RunError Cpu.Fault) Nat × Progress) :=
  let probes := (Console.Probes.ofTargets options.traces).shownBy filter
  let machine := Console.machine probes (env.observe filter)
    fun record => liftM (env.logIf filter record)
  (Pacing.runImage machine (env.host filter options) processorHz horizon
    (fun cartridge => return Console.powerOn cartridge) image).run ⟨.empty, 0⟩

def Environment.saveFrame (env : Environment m) (path : String) (frame : Frame) :
    m (Except SaveError Unit) := do
  match Png.Image.ofFrame? frame with
  | none => return .error .noPixels
  | some image =>
    match ← env.save path image with
    | .ok () => return .ok ()
    | .error error => return .error (.file error)

/-- Saves the last frame if asked to; gives whether the program may go on. -/
def Environment.screenshot (env : Environment m) (log : Log.Level → String → m Unit)
    (options : Options) (capture : Capture) : m Bool := do
  match options.screenshot, capture.latest with
  | none, _ => return true
  | some path, some frame =>
    match ← env.saveFrame path frame with
    | .ok () =>
      log .info s!"screenshot saved to {path}"
      return true
    | .error error =>
      log .error error.message
      return false
  | some _, none =>
    log .warn "no frame was presented; screenshot not saved"
    return true

@[specialize]
def Environment.runOptions (env : Environment m) (filter : Log.Filter) (options : Options) :
    m Nat := do
  let log (level : Log.Level) (message : String) : m Unit :=
    env.logIf filter ⟨level, logTarget, message⟩
  match ← env.load options.rom with
  | .error error =>
    log .error s!"failed to read ROM file {options.rom}: {error.message}"
    return 1
  | .ok image =>
    log .info s!"loaded {options.rom}"
    let (outcome, progress) ← env.runImage filter options image
    if ← env.screenshot log options progress.capture then
      match outcome with
      | .finished epochs =>
        log .info s!"stopped after {epochs} epochs, {progress.capture.presented} frames"
        return 0
      | .faulted error =>
        log .error error.message
        (error.causes Cpu.Fault.message).forM fun cause => log .error s!"  caused by: {cause}"
        return 1
      | .exhausted => return 1
    else
      return 1

/-- The whole program: its arguments and the text of its log filter decide; gives its exit
code. -/
@[specialize]
def Environment.runProgram (env : Environment m) (arguments : List String)
    (filterText : Option String) : m Nat := do
  match Options.ofArguments arguments with
  | .error .version =>
    env.print versionLine
    return 0
  | .error .help =>
    helpLines.forM env.print
    return 0
  | .error .usage => return 2
  | .ok options =>
    let (filter, errors) := Log.Filter.read (filterText.getD defaultFilter)
    errors.forM fun error => env.warn error.warning
    env.runOptions filter options

end

end Famicom.CommandLine
