import Colloquy.Configuration

/-!
# The starter configuration

The text that a user is given to start from. It spells out the standard settings and one agent that
knows the weather.
-/

namespace Colloquy.Configuration

/-- The lines of the starter configuration. -/
def starterLines : List String :=
  ["[orchestrator]",
    "history_limit = 10",
    "preview_chars = 200",
    "max_depth = 8",
    "stream_buffer = 64",
    "",
    "[storage]",
    "backend = \"sqlite\"",
    "",
    "[[agents]]",
    "id = \"weather-bot\"",
    "name = \"Weather Bot\"",
    "",
    "[agents.llm]",
    "model = \"gpt-4o-mini\"",
    "temperature = 0.699999988079071",
    "",
    "[[agents.prompts]]",
    "content = \"You are Weather Bot. Use get_weather to answer weather questions.\"",
    "active = true",
    "",
    "[[agents.tools]]",
    "name = \"get_weather\"",
    "description = \"Look up current weather conditions for a city.\"",
    "kind = \"native\"",
    "active = true",
    "",
    "[agents.tools.parameters]",
    "required = [\"city\"]",
    "type = \"object\"",
    "",
    "[agents.tools.parameters.properties.city]",
    "description = \"City name\"",
    "type = \"string\""]

/-- The starter configuration as a TOML text. -/
def starterText : String :=
  String.join (starterLines.map (· ++ "\n"))

end Colloquy.Configuration
