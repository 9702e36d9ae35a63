import TorrentRemote.Model.Kind

/-!
# Sessions

The settings of the daemon and its statistics.
-/

namespace TorrentRemote.Model

def units : Model := ⟨"Units", [
  (⟨"speed_units", "speed-units"⟩, .listOf .text),
  (⟨"speed_bytes", "speed-bytes"⟩, .integer),
  (⟨"size_units", "size-units"⟩, .listOf .text),
  (⟨"size_bytes", "size-bytes"⟩, .integer),
  (⟨"memory_units", "memory-units"⟩, .listOf .text),
  (⟨"memory_bytes", "memory-bytes"⟩, .integer)]⟩

def session : Model := ⟨"Session", [
  (⟨"alt_speed_down", "alt-speed-down"⟩, .integer),
  (⟨"alt_speed_enabled", "alt-speed-enabled"⟩, .flag),
  (⟨"alt_speed_time_begin", "alt-speed-time-begin"⟩, .integer),
  (⟨"alt_speed_time_enabled", "alt-speed-time-enabled"⟩, .flag),
  (⟨"alt_speed_time_end", "alt-speed-time-end"⟩, .integer),
  (⟨"alt_speed_time_day", "alt-speed-time-day"⟩, .integer),
  (⟨"alt_speed_up", "alt-speed-up"⟩, .integer),
  (⟨"blocklist_url", "blocklist-url"⟩, .text),
  (⟨"blocklist_enabled", "blocklist-enabled"⟩, .flag),
  (⟨"blocklist_size", "blocklist-size"⟩, .integer),
  (⟨"cache_size_mb", "cache-size-mb"⟩, .integer),
  (⟨"config_dir", "config-dir"⟩, .text),
  (⟨"download_dir", "download-dir"⟩, .text),
  (⟨"download_queue_size", "download-queue-size"⟩, .integer),
  (⟨"download_queue_enabled", "download-queue-enabled"⟩, .flag),
  (⟨"download_dir_free_space", "download-dir-free-space"⟩, .integer),
  (⟨"dht_enabled", "dht-enabled"⟩, .flag),
  (⟨"encryption", "encryption"⟩, .member .encryption),
  (⟨"idle_seeding_limit", "idle-seeding-limit"⟩, .integer),
  (⟨"idle_seeding_limit_enabled", "idle-seeding-limit-enabled"⟩, .flag),
  (⟨"incomplete_dir", "incomplete-dir"⟩, .text),
  (⟨"incomplete_dir_enabled", "incomplete-dir-enabled"⟩, .flag),
  (⟨"lpd_enabled", "lpd-enabled"⟩, .flag),
  (⟨"peer_limit_global", "peer-limit-global"⟩, .integer),
  (⟨"peer_limit_per_torrent", "peer-limit-per-torrent"⟩, .integer),
  (⟨"pex_enabled", "pex-enabled"⟩, .flag),
  (⟨"peer_port", "peer-port"⟩, .integer),
  (⟨"peer_port_random_on_start", "peer-port-random-on-start"⟩, .flag),
  (⟨"port_forwarding_enabled", "port-forwarding-enabled"⟩, .flag),
  (⟨"queue_stalled_enabled", "queue-stalled-enabled"⟩, .flag),
  (⟨"queue_stalled_minutes", "queue-stalled-minutes"⟩, .integer),
  (⟨"rename_partial_files", "rename-partial-files"⟩, .flag),
  (⟨"rpc_version", "rpc-version"⟩, .integer),
  (⟨"rpc_version_minimum", "rpc-version-minimum"⟩, .integer),
  (⟨"script_torrent_done_filename", "script-torrent-done-filename"⟩, .text),
  (⟨"script_torrent_done_enabled", "script-torrent-done-enabled"⟩, .flag),
  (⟨"seed_ratio_limit", "seedRatioLimit"⟩, .number),
  (⟨"seed_ratio_limited", "seedRatioLimited"⟩, .flag),
  (⟨"seed_queue_size", "seed-queue-size"⟩, .integer),
  (⟨"seed_queue_enabled", "seed-queue-enabled"⟩, .flag),
  (⟨"speed_limit_down", "speed-limit-down"⟩, .integer),
  (⟨"speed_limit_down_enabled", "speed-limit-down-enabled"⟩, .flag),
  (⟨"speed_limit_up", "speed-limit-up"⟩, .integer),
  (⟨"speed_limit_up_enabled", "speed-limit-up-enabled"⟩, .flag),
  (⟨"start_added_torrents", "start-added-torrents"⟩, .flag),
  (⟨"trash_original_torrent_files", "trash-original-torrent-files"⟩, .flag),
  (⟨"units", "units"⟩, units.kind),
  (⟨"utp_enabled", "utp-enabled"⟩, .flag),
  (⟨"version", "version"⟩, .text)]⟩

def stats : Model := ⟨"Stats", [
  (⟨"uploaded_bytes", "uploadedBytes"⟩, .integer),
  (⟨"downloaded_bytes", "downloadedBytes"⟩, .integer),
  (⟨"files_added", "filesAdded"⟩, .integer),
  (⟨"session_count", "sessionCount"⟩, .integer),
  (⟨"seconds_active", "secondsActive"⟩, .duration)]⟩

def sessionStats : Model := ⟨"SessionStats", [
  (⟨"active_torrent_count", "activeTorrentCount"⟩, .integer),
  (⟨"download_speed", "downloadSpeed"⟩, .integer),
  (⟨"paused_torrent_count", "pausedTorrentCount"⟩, .integer),
  (⟨"torrent_count", "torrentCount"⟩, .integer),
  (⟨"upload_speed", "uploadSpeed"⟩, .integer),
  (⟨"cumulative_stats", "cumulative-stats"⟩, stats.kind),
  (⟨"current_stats", "current-stats"⟩, stats.kind)]⟩

end TorrentRemote.Model
