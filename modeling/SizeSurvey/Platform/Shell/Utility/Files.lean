import SizeSurvey.Platform.Shell.Utility.Run
/-!
# Files and names

Utilities that make and remove files, list them, or take their names apart.
-/
namespace SizeSurvey.Shell.Utility

def touch : Behaviour :=
  withChosen [{ letter := 'c', names := ["no-create"] }] fun chosen run =>
    chosen.operands.foldl (fun run operand =>
      let path := nameOf operand
      if (run.machine.tree.find (run.ports.resolve path)).toOption.isSome || chosen.has 'c' then run
      else
        match run.machine.openToWrite run.ports path .append with
        | .ok (_, machine) => { run with machine }
        | .error trouble => run.complain ("cannot touch '" ++ path ++ "': " ++ complaint trouble))
      run

def mkdir : Behaviour :=
  withChosen [{ letter := 'p', names := ["parents"] }] fun chosen run =>
    if chosen.operands.isEmpty then run.refuse "missing operand"
    else
      chosen.operands.foldl (fun run operand =>
        let path := run.ports.resolve (nameOf operand)
        let made := if chosen.has 'p' then run.machine.tree.makeDirectories path
          else run.machine.tree.makeDirectory path
        match made with
        | .ok tree => { run with machine := { run.machine with tree } }
        | .error trouble =>
          run.complain ("cannot create directory '" ++ nameOf operand ++ "': "
            ++ complaint trouble)) run

def removed (tree : Node) (place : List String) : Node :=
  match place.getLast?, tree.at? place.dropLast with
  | some name, some (.directory entries) =>
    tree.put place.dropLast (.directory (entries.filter (·.1 ≠ name)))
  | _, _ => tree

def rm : Behaviour :=
  withChosen [{ letter := 'f', names := ["force"] }, { letter := 'r', names := ["recursive"] },
      { letter := 'R' }] fun chosen run =>
    if chosen.operands.isEmpty && !chosen.has 'f' then run.refuse "missing operand"
    else
      chosen.operands.foldl (fun run operand =>
        let shown := "cannot remove '" ++ nameOf operand ++ "': "
        match run.machine.tree.locate false (run.ports.resolve (nameOf operand)) with
        | .error trouble =>
          if chosen.has 'f' then run else run.complain (shown ++ complaint trouble)
        | .ok place =>
          match run.machine.tree.at? place with
          | none =>
            if chosen.has 'f' then run else run.complain (shown ++ complaint .notFound)
          | some (.directory _) =>
            if chosen.has 'r' || chosen.has 'R' then
              { run with machine := { run.machine with tree := removed run.machine.tree place } }
            else run.complain (shown ++ complaint .isADirectory)
          | some _ =>
            { run with machine := { run.machine with tree := removed run.machine.tree place } })
        run

def ls : Behaviour :=
  withChosen [{ letter := 'a', names := ["all"] }, { letter := 'A', names := ["almost-all"] },
      { letter := '1' }] fun chosen run =>
    let operands := if chosen.operands.isEmpty then [['.']] else chosen.operands
    let isShown (name : String) : Bool :=
      chosen.has 'a' || chosen.has 'A' || name.toList.head? ≠ some '.'
    let (run, files, directories) := operands.foldl
      (fun ((run, files, directories) : Run × List (List Char) × List (List Char × List String))
          operand =>
        match run.machine.tree.find (run.ports.resolve (nameOf operand)) with
        | .ok (.directory entries) =>
          let own := if chosen.has 'a' then [".", ".."] else []
          (run, files,
            directories ++ [(operand, own ++ (entries.map Prod.fst).filter isShown)])
        | .ok _ => (run, files ++ [operand], directories)
        | .error trouble =>
          (run.complain ("cannot access '" ++ nameOf operand ++ "': " ++ complaint trouble) 2,
            files, directories))
      (run, [], [])
    let titled := 1 < operands.length
    let listed := directories.map fun (operand, names) =>
      (if titled then operand ++ [':', '\n'] else [])
        ++ names.flatMap fun name => octetsOf name ++ ['\n']
    let plain := files.flatMap fun operand => operand ++ ['\n']
    let parts := (if files.isEmpty then [] else [plain]) ++ listed
    (run.write (List.intercalate ['\n'] parts)).finish

def trimmed (path : List Char) : List Char :=
  let text := (path.reverse.dropWhile (· = '/')).reverse
  if text.isEmpty && !path.isEmpty then ['/'] else text

def basename : Behaviour := fun words run =>
  match words with
  | [] => run.refuse "missing operand"
  | path :: more =>
    let text := trimmed path
    let name := if text = ['/'] then text else (text.reverse.takeWhile (· ≠ '/')).reverse
    let ending := more.headD []
    let name := if ending.length < name.length && ending.isSuffixOf name then
        name.take (name.length - ending.length)
      else name
    (run.write (name ++ ['\n'])).finish

def dirname : Behaviour := fun words run =>
  if words.isEmpty then run.refuse "missing operand"
  else
    let directory (path : List Char) : List Char :=
      let text := trimmed path
      let front := text.reverse.dropWhile (· ≠ '/')
      if front.isEmpty then ['.'] else trimmed front.reverse
    (run.write (words.flatMap fun path => directory path ++ ['\n'])).finish

end SizeSurvey.Shell.Utility
