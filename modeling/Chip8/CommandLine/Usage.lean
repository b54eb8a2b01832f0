import Chip8.CommandLine.Options

/-!
What the emulator says about itself.
-/

namespace Chip8.CommandLine

/-- The name of the program and its version. -/
def versionText : String := "chip8 0.1.0"

/-- How the program is called. -/
def usageText : String :=
  "\n".intercalate
    ["CHIP-8 virtual machine running in the terminal",
      "",
      "Usage: chip8 [OPTIONS] <ROM>",
      "",
      "Arguments:",
      "  <ROM>  Path of the program to run",
      "",
      "Options:",
      "      --hertz <N>        Instructions per second [default: "
        ++ toString Console.defaultHertz ++ "]",
      "  -v, --verbose          More log output, can be repeated",
      "      --step             Start paused, to step through the program",
      "      --start-frame <N>  Frames to run before the program is shown [default: 0]",
      "      --seed <N>         Seed of the random bytes",
      "  -h, --help             Print this help",
      "  -V, --version          Print the version"]

end Chip8.CommandLine
