import Multiport.Demo

/-- Lowers the memories of the demonstration and writes them out; tells what went wrong. -/
def main : IO UInt32 := do
  let directory := "build"
  match Multiport.Demo.lowered with
  | (.error error, _) =>
      IO.eprintln ("Error: " ++ error.message)
      return 1
  | (.ok _, design) =>
      match design.files with
      | .error _ =>
          IO.eprintln "Error: the design cannot be written"
          return 1
      | .ok files =>
          IO.FS.createDirAll directory
          for file in files do
            IO.FS.writeFile (directory ++ "/" ++ file.name) file.content
          return 0
