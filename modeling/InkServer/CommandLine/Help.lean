/-!
# What the command line says of itself

The texts for somebody who asks for help, laid out for eighty columns.
-/

namespace InkServer.CommandLine

/-- The name and the version of the program. -/
def versionText : String := "inkls, version 0.3.0\n"

/-- How the program is used. -/
def programUsage : String := "Usage: inkls [OPTIONS] [COMMAND] [ARGS]..."

/-- How the command is used that starts the server. -/
def serverUsage : String := "Usage: inkls lsp [OPTIONS]"

/-- Where to find help. -/
def hint (command : String) : String := s!"Try '{command} --help' for help."

def lines (ls : List String) : String := String.join (ls.map (· ++ "\n"))

/-- What the program is about. -/
def programHelp : String := lines [
  programUsage,
  "",
  "  Ink language server",
  "",
  "Options:",
  "  --version  Show the version and exit.",
  "  --help     Show this message and exit.",
  "",
  "Commands:",
  "  lsp  Start the Ink language server."]

/-- What the command is about that starts the server. -/
def serverHelp : String := lines [
  serverUsage,
  "",
  "  Start the Ink language server.",
  "",
  "  The server compiles the Ink stories of the open workspace folders with",
  "  inklecate and reports errors, warnings and TODOs as diagnostics.",
  "",
  "  By default, the server uses stdio for communication (suitable for IDE",
  "  integration). Use --tcp flag for testing or when stdio communication is not",
  "  suitable.",
  "",
  "  Examples:     inkls lsp                      # Start LSP server using stdio",
  "  inkls lsp --tcp                # Start LSP server using TCP on",
  "  localhost:3000     inkls lsp --tcp --port 4000    # Start LSP server using",
  "  TCP on localhost:4000     inkls lsp --config inkls.yml   # Use a specific",
  "  configuration file     inkls lsp --debug              # Start with detailed",
  "  debug logging",
  "",
  "Options:",
  "  --port INTEGER  Port number for LSP server (defaults to 3000)",
  "  --host TEXT     Host to bind to when using TCP mode (defaults to localhost)",
  "  --tcp           Use TCP instead of stdio for LSP communication",
  "  --config FILE   Server configuration file (defaults to $INKLS_CONFIG or",
  "                  ~/.inkls/config.yml)",
  "  --debug         Show detailed debug information",
  "  --help          Show this message and exit."]

end InkServer.CommandLine
