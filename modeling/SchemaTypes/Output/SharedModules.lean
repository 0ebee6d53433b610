/-
# Shared files

The types that all generated files share (`commonModule`) and the internationalisation module with
the locales, the messages, and two functions that look messages up (`i18nModule`).
-/
import SchemaTypes.ImportPaths
import SchemaTypes.Data.Json.Printer
import SchemaTypes.Messages.Basic
import SchemaTypes.Output.Header
import SchemaTypes.TypeScript.TypeExpr

namespace SchemaTypes.Output

open TypeScript (Statement Block SourceFile Specifier quote)

/-- The names of the common file. -/
def commonNames : List String :=
  ["LocaleMap", "Locale", "ValidationRule", "DateTimeString", "DateString"]

/-- The names of the internationalisation module. -/
def i18nNames : List String :=
  ["defaultLocale", "fallbackLocale", "supportedLocales", "validationMessages", "getMessage",
   "getMessages"]

/-! ## 1. Common types -/

/-- The shape of a rule. -/
def validationRuleStatement : Statement :=
  .interface "ValidationRule" []
    ["  required?: boolean;",
     "  type?: 'string' | 'number' | 'email' | 'url' | 'integer' | 'array' | 'object';",
     "  min?: number;",
     "  max?: number;",
     "  len?: number;",
     "  pattern?: RegExp;",
     "  message: LocaleMap;"]

/-- The file of the common types. -/
def commonModule (config : Config) : SourceFile :=
  { header := some (generatedHeader defaultSubject)
    blocks :=
      [.declare (.interface "LocaleMap" [] ["  [locale: string]: string;"])
         (some ["Locale map for multi-language support."]) true,
       .declare (.typeAlias "Locale" (TypeExpr.literalUnion config.localeConfig.locales))
         (some ["Supported locales in this project."]) true,
       .declare validationRuleStatement
         (some ["Validation rule with multi-locale messages.",
                "Use get\x7bModel\x7dRules(locale) to get Ant Design compatible rules "
                  ++ "with string messages."])
         false,
       .declare (.typeAlias "DateTimeString" "string") (some ["ISO 8601 date-time string."]) true,
       .declare (.typeAlias "DateString" "string")
         (some ["ISO 8601 date string (YYYY-MM-DD)."]) true] }

/-! ## 2. Internationalisation -/

/-- A table of messages over several lines. -/
def messageTableText (table : MessageTable) : String :=
  let l : Json.Layout := .indented 2
  l.enclose 0 "\x7b" "\x7d"
    (table.map fun e =>
      Json.text e.1 ++ l.colon
        ++ l.enclose 1 "\x7b" "\x7d" (e.2.map fun m => Json.text m.1 ++ l.colon ++ Json.text m.2))

/-- The look-up of a message in a locale, with its further lines behind an indentation. -/
def messageLookup (indent : String) : String :=
  "(messages as LocaleMap)[locale]\n"
    ++ indent ++ "?? (messages as LocaleMap)[fallbackLocale]\n"
    ++ indent ++ "?? (messages as LocaleMap)[defaultLocale]\n"
    ++ indent ++ "?? key;"

/-- The function that gives one message. -/
def getMessageBlock : Block :=
  .declare
    (.function "getMessage"
      ("\n  key: string,\n  locale: string,\n"
        ++ "  params: Record<string, string | number> = \x7b\x7d\n")
      "string"
      ["const messages = validationMessages[key as keyof typeof validationMessages];",
       "if (!messages) return key;",
       "",
       "let message = " ++ messageLookup "    ",
       "",
       "// Replace template placeholders",
       "for (const [param, value] of Object.entries(params)) \x7b",
       "  message = message.replace("
         ++ "new RegExp(\x60\\\\$\\\\\x7b$\x7bparam\x7d\\\\\x7d\x60, 'g'), String(value));",
       "\x7d",
       "",
       "return message;"])
    (some
      ["Get validation message for a specific key and locale.",
       "Supports template placeholders: $\x7bdisplayName\x7d, $\x7bmin\x7d, $\x7bmax\x7d, etc.",
       "",
       "@param key - Message key (e.g., 'required', 'minLength')",
       "@param locale - Locale code (e.g., 'ja', 'en')",
       "@param params - Template parameters to replace",
       "@returns Formatted message string"])
    false

/-- The function that gives all messages. -/
def getMessagesBlock : Block :=
  .declare
    (.function "getMessages" "locale: string" "Record<string, string>"
      ["const result: Record<string, string> = \x7b\x7d;",
       "for (const [key, messages] of Object.entries(validationMessages)) \x7b",
       "  result[key] = " ++ messageLookup "      ",
       "\x7d",
       "return result;"])
    (some
      ["Get all validation messages for a specific locale.",
       "",
       "@param locale - Locale code",
       "@returns Object with all messages for the locale"])
    false

/-- The internationalisation module. -/
def i18nModule (config : Config) (paths : ImportPaths) : SourceFile :=
  let c := config.localeConfig
  { header := some (generatedHeader defaultSubject)
    imports :=
      [{ names := [.plain "LocaleMap"], module := paths.commonFromRoot, typeOnly := true }]
    blocks :=
      [.declare (.const true "defaultLocale" none (quote c.defaultLocale ++ " as const"))
         (some ["Default locale for this project."]) true,
       .declare (.const true "fallbackLocale" none (quote c.fallbackLocale ++ " as const"))
         (some ["Fallback locale when requested locale is not found."]) true,
       .declare (.const true "supportedLocales" none (Json.texts c.locales ++ " as const"))
         (some ["Supported locales in this project."]) true,
       .declare
         (.const true "validationMessages" none
           (messageTableText (Messages.withUserMessages c.locales c.messages) ++ " as const"))
         (some ["Validation messages for all supported locales.",
                "Use getMessage(key, locale, params) to get formatted message."])
         false,
       getMessageBlock,
       getMessagesBlock] }

end SchemaTypes.Output
