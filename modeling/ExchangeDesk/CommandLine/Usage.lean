/-!
# Texts of the command line

The help text, and the example of a book that is shown when a file holds none.
-/

namespace ExchangeDesk.CommandLine

def usage : String :=
  "forex-engine: currency exchange with cashier and journal posting

USAGE:
    forex-engine <COMMAND> [OPTIONS]

COMMANDS:
    exchange    Execute an exchange and print the committed legs
    rate        Show the rate in force for a currency on a date
    help        Show this message

OPTIONS (exchange):
    --book <FILE>          Organisation book (currencies, rates, cashiers, GL accounts)
    --from <CODE>          Currency handed over by the client
    --to <CODE>            Currency paid out to the client
    --amount <AMOUNT>      Amount of --from currency
    --date <YYYY-MM-DD>    Transaction date
    --user <ID>            Acting user id
    --staff <ID>           Acting staff id (default: same as --user)
    --client-id <ID>       Optional client reference
    --client-name <NAME>   Optional client name
    --per-leg              Commit cross-currency legs separately
    --format <FORMAT>      Output format: text (default) or json

OPTIONS (rate):
    --book <FILE>          Organisation book
    --currency <CODE>      Currency to look up
    --type <TYPE>          buying, selling, intermediary (or 1, 2, 3)
    --date <YYYY-MM-DD>    Effective date
    --format <FORMAT>      Output format: text (default) or json

EXAMPLES:
    forex-engine exchange --book book.json --from USD --to UGX --amount 100 --date 2024-01-15 --user 1
    forex-engine exchange --book book.json --from USD --to EUR --amount 100 --date 2024-01-15 --user 1 --format json
    forex-engine rate --book book.json --currency USD --type selling --date 2024-01-15
"

def bookExample : String :=
  "\x7b
  \"currencies\": [
    \x7b \"code\": \"UGX\", \"name\": \"Uganda Shilling\", \"decimal_places\": 0, \"is_home_currency\": true \x7d,
    \x7b \"code\": \"USD\", \"name\": \"US Dollar\", \"decimal_places\": 2, \"is_home_currency\": false \x7d
  ],
  \"rates\": [
    \x7b \"date\": \"2024-01-01\", \"rate_type\": \"BUYING\", \"currency\": \"USD\", \"amount\": \"3700\" \x7d
  ],
  \"cashiers\": [
    \x7b \"id\": 1, \"staff_id\": 1, \"teller_id\": 1, \"office_id\": 1 \x7d
  ],
  \"financial_activity_accounts\": [
    \x7b \"activity\": \"CASH_AT_MAINVAULT\", \"currency\": \"USD\", \"gl_account\": 11 \x7d
  ]
\x7d
"

end ExchangeDesk.CommandLine
