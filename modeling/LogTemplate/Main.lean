import LogTemplate.Run

/-!
# The command line

The program reads records from standard input and writes one JSON object for each on standard
output. It is set up by environment variables and files alone, and ends with code one when it could
not be set up or could not read its input.
-/

namespace LogTemplate.Main

/-- The environment variables that a run looks at. -/
def variableNames : List String :=
  ["MINER_CONFIG_FILE", "MINER_SEQUENCE_CONFIG", "MINER_BATCH_SIZE", "MINER_MAX_WORKERS",
    "MINER_MAX_EXAMPLES", "MINER_INPUT_FORMAT"]

/-- The variables that are set, with their values. -/
def readVariables : IO (List (Text × Text)) :=
  variableNames.filterMapM fun name => do
    return (← IO.getEnv name).map fun value => (name.toList, value.toList)

/-- What a path leads to. -/
def readFile (path : Text) : IO File := do
  try
    let bytes ← IO.FS.readBinFile (String.ofList path)
    match String.fromUTF8? bytes with
    | some content => return .text content.toList
    | none => return .unreadable
  catch
    | .noFileOrDirectory .. => return .missing
    | _ => return .unreadable

/-- The surroundings that consist of these variables and files. -/
def surroundings (bindings : List (Text × Text)) (files : List (Text × File)) : Surroundings where
  environment name := bindings.lookup name
  file path := (files.lookup path).getD .missing

/-- What a run sees of the system: the variables, and the files that the settings name. -/
def look : IO Surroundings := do
  let bindings ← readVariables
  let path := (bindings.lookup "MINER_CONFIG_FILE".toList).getD RunSettings.defaultPath
  let files := [(path, ← readFile path)]
  match RunSettings.load (surroundings bindings files) with
  | .ok { vocabularyPath := some path, .. } =>
    return surroundings bindings (files ++ [(path, ← readFile path)])
  | _ => return surroundings bindings files

/-- The bytes of a stream to its end, behind those that were read. -/
partial def readBytes (stream : IO.FS.Stream) (read : ByteArray) : IO ByteArray := do
  let bytes ← stream.read 65536
  if bytes.isEmpty then return read else readBytes stream (read ++ bytes)

end LogTemplate.Main

open LogTemplate in
/-- Run the program. -/
def main : IO UInt32 := do
  match launch (← Main.look) with
  | .error e =>
    IO.eprintln (String.ofList (e.message?.getD "The settings cannot be read.".toList))
    return 1
  | .ok (s, miner) =>
    let bytes ← Main.readBytes (← IO.getStdin) .empty
    let transcript := miner.run s (Input.lines bytes.toList)
    (← IO.getStdout).putStr (String.ofList transcript.output)
    return if transcript.finished then 0 else 1
