import EffectFusion.Command.Run

/-!
# The command line on a real file system
-/

namespace EffectFusion.Command

def systemCode : IO.Error → Nat
  | .alreadyExists _ code _ | .otherError code _ | .resourceBusy code _
  | .resourceVanished code _ | .unsupportedOperation code _ | .hardwareFault code _
  | .unsatisfiedConstraints code _ | .illegalOperation code _ | .protocolError code _
  | .timeExpired code _ | .interrupted _ code _ | .noFileOrDirectory _ code _
  | .invalidArgument _ code _ | .permissionDenied _ code _ | .resourceExhausted _ code _
  | .inappropriateType _ code _ | .noSuchThing _ code _ =>
    -- some operations give the number with a minus sign
    if code < 0x80000000 then code.toNat else (0 - code).toNat
  | .unexpectedEof | .userError _ => 5

def attempt {α : Type} (op : IO α) : IO (Except FileFault α) := do
  match ← op.toBaseIO with
  | .ok v => pure (.ok v)
  | .error e => pure (.error (.system (systemCode e)))

/-- the files of the machine; a folder is what is there and cannot be read as a file -/
def machineFiles : Files IO where
  read path := attempt (IO.FS.readBinFile path)
  write path text := attempt (IO.FS.writeFile path text)
  makeFolder path := attempt (IO.FS.createDir path)
  isFolder path := do
    match ← attempt (IO.FS.readBinFile (path ++ "/.")) with
    | .ok _ => pure false
    | .error e => pure (e == folder)

end EffectFusion.Command

/-- what the arguments do not fit is answered with the help on standard error -/
def main (arguments : List String) : IO UInt32 := do
  let outcome ← EffectFusion.Command.run EffectFusion.Command.machineFiles arguments
  IO.print outcome.stdout
  IO.eprint outcome.stderr
  pure outcome.exit.toUInt32
